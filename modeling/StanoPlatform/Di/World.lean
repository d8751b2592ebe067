import Mathlib.Data.Finset.Card
import StanoPlatform.Di.Container

/-!
# `Di/World.lean` — running code against a container

A `World` is a container and the history of its slots. Five things can happen to a slot
(`Tick`): its content is handed out, its initialisation begins, succeeds or unwinds, or the
thread that is initialising it asks for it again. Every run — of one thread here, of many in
`Di/Threads.lean` — is a sequence of ticks, so what a tick preserves is proved once.

`exec` runs one thread. `get_or_init` on an empty slot runs the factory, which may call
`get_or_init` again, so the evaluator carries fuel for the *nesting depth*; a slot being
initialised is not empty, so depth is bounded by the number of slots and `run` is never out of
fuel (`run_fuel`). The one way not to come back is to ask for a slot one is initialising:
`Stop.deadlocked`, recorded as `Event.reentered`.

From `get_or_init` and the `Arc`s it hands out, in `stano-di/src/container.rs`. The trace is not in
the source; it is written and never read, and there to state what happened. A panic in a factory
leaves its slot empty, as `OnceLock` documents.
-/

set_option autoImplicit false

namespace StanoPlatform
namespace Di

open Lib Relation

inductive Event where
  -- `get_or_init` found the slot empty and starts the factory
  | entered (id : TypeId)
  -- the factory returned, and the slot is full
  | built (id : TypeId) (factory : Factory) (a : AnyArc)
  -- the factory panicked, and the slot is empty again
  | unwound (id : TypeId)
  -- `get_or_init` returned
  | resolved (id : TypeId) (a : AnyArc)
  -- `get_or_init` called by the thread already initialising the slot: it never returns
  | reentered (id : TypeId)

/-- A container and its history, newest event first. -/
structure World where
  container : Container
  trace : List Event

namespace World

def start (container : Container) : World := ⟨container, []⟩

def now (w : World) : Nat := w.trace.length

def slot (w : World) (id : TypeId) : Option (OnceLock AnyArc) := w.container.singletons.get id

def isSet (w : World) (id : TypeId) : Bool :=
  match w.slot id with
  | some lock => lock.isSet
  | none => false

theorem isSet_iff {w : World} {id : TypeId} :
    w.isSet id = true ↔ ∃ a, w.slot id = some (.full a) := by
  unfold isSet
  cases w.slot id with
  | none => simp
  | some lock => cases lock <;> simp [OnceLock.isSet]

def setSlot (w : World) (id : TypeId) (lock : OnceLock AnyArc) (events : List Event) : World :=
  { container := { w.container with singletons := w.container.singletons.insert id lock }
    trace := events ++ w.trace }

def enter (w : World) (id : TypeId) : World := w.setSlot id .initializing [.entered id]

def finish (w : World) (id : TypeId) (f : Factory) (a : AnyArc) : World :=
  w.setSlot id (.full a) [.resolved id a, .built id f a]

def unwind (w : World) (id : TypeId) : World := w.setSlot id .empty [.unwound id]

def hit (w : World) (id : TypeId) (a : AnyArc) : World :=
  { w with trace := .resolved id a :: w.trace }

def reenter (w : World) (id : TypeId) : World := { w with trace := .reentered id :: w.trace }

theorem slot_setSlot (w : World) (id : TypeId) (lock : OnceLock AnyArc) (events : List Event)
    (k : TypeId) : (w.setSlot id lock events).slot k = if k = id then some lock else w.slot k :=
  HashMap.get_insert _ _ _ _

theorem slot_enter (w : World) (id k : TypeId) :
    (w.enter id).slot k = if k = id then some .initializing else w.slot k := slot_setSlot ..

theorem slot_finish (w : World) (id k : TypeId) (f : Factory) (a : AnyArc) :
    (w.finish id f a).slot k = if k = id then some (.full a) else w.slot k := slot_setSlot ..

theorem slot_unwind (w : World) (id k : TypeId) :
    (w.unwind id).slot k = if k = id then some .empty else w.slot k := slot_setSlot ..

end World

/-! ## One thread -/

inductive Stop where
  | deadlocked
  | outOfFuel
  deriving DecidableEq, Repr

inductive Outcome (α : Type) where
  | returned (a : α)
  | panicked

def Prog.exec {α : Type} (getOrInit : World → TypeId → World × Except Stop Resolution) :
    Prog α → World → World × Except Stop (Outcome α)
  | .ret a, w => (w, .ok (.returned a))
  | .panic, w => (w, .ok .panicked)
  | .peek id k, w => (k (w.isSet id)).exec getOrInit w
  | .resolve id k, w =>
    match getOrInit w id with
    | (w', .error e) => (w', .error e)
    | (w', .ok r) => (k r).exec getOrInit w'

namespace World

/-- Look the slot up and `get_or_init` it, given how the calls the factory makes go. -/
def initWith (getOrInit : World → TypeId → World × Except Stop Resolution) (w : World)
    (id : TypeId) : World × Except Stop Resolution :=
  match w.slot id with
  | none => (w, .ok .unregistered)
  | some (.full a) => (w.hit id a, .ok (.ready a))
  | some .initializing => (w.reenter id, .error .deadlocked)
  | some .empty =>
    match w.container.factories.get id with
    | none => (w, .ok .panicked)
    | some f =>
      match (f w.now).exec getOrInit (w.enter id) with
      | (w', .error e) => (w', .error e)
      | (w', .ok (.returned a)) => (w'.finish id f a, .ok (.ready a))
      | (w', .ok .panicked) => (w'.unwind id, .ok .panicked)

/-- `get_or_init`, at most `depth` factories deep. -/
def getOrInit : Nat → World → TypeId → World × Except Stop Resolution
  | 0, w, _ => (w, .error .outOfFuel)
  | depth + 1, w, id => initWith (getOrInit depth) w id

/-- Run a program, as deep as it can go. -/
def run {α : Type} (w : World) (p : Prog α) : World × Except Stop (Outcome α) :=
  p.exec (getOrInit (w.container.singletons.len + 1)) w

/-- **What one `get_or_init` can do.** -/
theorem initWith_cases (init : World → TypeId → World × Except Stop Resolution) (w : World)
    (id : TypeId) :
    (w.slot id = none ∧ initWith init w id = (w, .ok .unregistered)) ∨
    (∃ a, w.slot id = some (.full a) ∧ initWith init w id = (w.hit id a, .ok (.ready a))) ∨
    (w.slot id = some .initializing ∧
      initWith init w id = (w.reenter id, .error .deadlocked)) ∨
    (w.slot id = some .empty ∧ w.container.factories.get id = none ∧
      initWith init w id = (w, .ok .panicked)) ∨
    ∃ f w', w.slot id = some .empty ∧ w.container.factories.get id = some f ∧
      ((∃ e, (f w.now).exec init (w.enter id) = (w', .error e) ∧
          initWith init w id = (w', .error e)) ∨
        (∃ a, (f w.now).exec init (w.enter id) = (w', .ok (.returned a)) ∧
          initWith init w id = (w'.finish id f a, .ok (.ready a))) ∨
        ((f w.now).exec init (w.enter id) = (w', .ok .panicked) ∧
          initWith init w id = (w'.unwind id, .ok .panicked))) := by
  unfold initWith
  cases hslot : w.slot id with
  | none => exact .inl ⟨rfl, rfl⟩
  | some lock =>
    cases lock with
    | full a => exact .inr (.inl ⟨a, rfl, rfl⟩)
    | initializing => exact .inr (.inr (.inl ⟨rfl, rfl⟩))
    | empty =>
      cases hf : HashMap.get w.container.factories id with
      | none => exact .inr (.inr (.inr (.inl ⟨rfl, rfl, rfl⟩)))
      | some f =>
        refine .inr (.inr (.inr (.inr ⟨f, ((f w.now).exec init (w.enter id)).1, rfl, rfl, ?_⟩)))
        rcases hrun : (f w.now).exec init (w.enter id) with ⟨w', e | ⟨a | _⟩⟩
        · exact .inl ⟨e, rfl, by simp only [hrun]⟩
        · exact .inr (.inl ⟨a, rfl, by simp only [hrun]⟩)
        · exact .inr (.inr ⟨rfl, by simp only [hrun]⟩)

end World

/-! ## Ticks -/

inductive Tick : World → World → Prop
  | hit {w : World} {id : TypeId} {a : AnyArc} (hs : w.slot id = some (.full a)) :
      Tick w (w.hit id a)
  | enter {w : World} {id : TypeId} {f : Factory} (hs : w.slot id = some .empty)
      (hf : w.container.factories.get id = some f) : Tick w (w.enter id)
  | finish {w : World} {id : TypeId} {f : Factory} {now : Nat} {a : AnyArc}
      (hs : w.slot id = some .initializing) (hf : w.container.factories.get id = some f)
      (ha : (f now).Returns a) : Tick w (w.finish id f a)
  | unwind {w : World} {id : TypeId} (hs : w.slot id = some .initializing) : Tick w (w.unwind id)
  | reenter {w : World} {id : TypeId} (hs : w.slot id = some .initializing) :
      Tick w (w.reenter id)

abbrev Ticks : World → World → Prop := ReflTransGen Tick

/-- A tick touches the slots and nothing else of the container. -/
theorem Tick.rest {w w' : World} (h : Tick w w') :
    w'.container.factories = w.container.factories ∧
      w'.container.typeNames = w.container.typeNames ∧
      w'.container.dependencies = w.container.dependencies := by
  cases h <;> exact ⟨rfl, rfl, rfl⟩

theorem Tick.registered {w w' : World} (h : Tick w w') (k : TypeId) :
    w'.slot k = none ↔ w.slot k = none := by
  have hset : ∀ {id lock lock' events}, w.slot id = some lock →
      ((w.setSlot id lock' events).slot k = none ↔ w.slot k = none) := by
    intro id lock lock' events hs
    rw [World.slot_setSlot]
    split
    · rename_i hk
      rw [hk, hs]
      simp
    · rfl
  cases h with
  | hit => rfl
  | reenter => rfl
  | enter hs | finish hs | unwind hs => exact hset hs

/-- **A full slot never changes.** -/
theorem Tick.full {w w' : World} (h : Tick w w') {k : TypeId} {a : AnyArc}
    (hk : w.slot k = some (.full a)) : w'.slot k = some (.full a) := by
  have hset : ∀ {id lock lock' events}, w.slot id = some lock → (∀ b, lock ≠ .full b) →
      (w.setSlot id lock' events).slot k = some (.full a) := by
    intro id lock lock' events hs hne
    rw [World.slot_setSlot]
    split
    · rename_i heq
      rw [heq, hs] at hk
      exact absurd (Option.some.inj hk) (hne a)
    · exact hk
  cases h with
  | hit => exact hk
  | reenter => exact hk
  | enter hs | finish hs | unwind hs => exact hset hs (by simp)

theorem Tick.wf {w w' : World} (h : Tick w w') (hw : w.container.Wf) : w'.container.Wf := by
  -- a tick writes to one slot that is there already, so the keys stay the same
  have hset : ∀ {id lock lock' events}, w.slot id = some lock →
      (∀ a, lock' = .full a → a.ty = storedType id) →
      (w.setSlot id lock' events).container.Wf := by
    intro id lock lock' events hs htyped
    refine ⟨fun k => ?_, hw.typeNames, hw.dependencies, fun k a ha => ?_, hw.builds⟩
    · show k ∈ w.container.singletons.insert id lock' ↔ _
      rw [Finmap.mem_insert, hw.singletons]
      refine ⟨?_, .inr⟩
      rintro (rfl | hk)
      · exact (hw.singletons k).mp (HashMap.mem_of_get hs)
      · exact hk
    · have ha : (w.setSlot id lock' events).slot k = some (.full a) := ha
      rw [World.slot_setSlot] at ha
      split at ha
      · rename_i hk
        exact hk ▸ htyped a (Option.some.inj ha)
      · exact hw.filled k a ha
  cases h with
  | hit => exact hw
  | reenter => exact hw
  | enter hs | unwind hs => exact hset hs (by simp)
  | finish hs hf ha =>
    refine hset hs fun b hb => ?_
    cases hb
    exact hw.builds _ _ hf _ _ ha

theorem Ticks.rest {w w' : World} (h : Ticks w w') :
    w'.container.factories = w.container.factories ∧
      w'.container.typeNames = w.container.typeNames ∧
      w'.container.dependencies = w.container.dependencies := by
  induction h with
  | refl => exact ⟨rfl, rfl, rfl⟩
  | tail _ ht ih =>
    obtain ⟨h₁, h₂, h₃⟩ := ht.rest
    exact ⟨h₁.trans ih.1, h₂.trans ih.2.1, h₃.trans ih.2.2⟩

theorem Ticks.registered {w w' : World} (h : Ticks w w') (k : TypeId) :
    w'.slot k = none ↔ w.slot k = none := by
  induction h with
  | refl => rfl
  | tail _ ht ih => exact (ht.registered k).trans ih

theorem Ticks.full {w w' : World} (h : Ticks w w') {k : TypeId} {a : AnyArc}
    (hk : w.slot k = some (.full a)) : w'.slot k = some (.full a) := by
  induction h with
  | refl => exact hk
  | tail _ ht ih => exact ht.full ih

theorem Ticks.wf {w w' : World} (h : Ticks w w') (hw : w.container.Wf) : w'.container.Wf := by
  induction h with
  | refl => exact hw
  | tail _ ht ih => exact ht.wf ih

/-! ## A run is a sequence of ticks -/

/-- What a run may do to slots that other factories are initialising: nothing. -/
structure Runs (w w' : World) : Prop where
  ticks : Ticks w w'
  busy : ∀ k, w.slot k = some .initializing → w'.slot k = some .initializing

theorem Runs.refl (w : World) : Runs w w := ⟨.refl, fun _ h => h⟩

theorem Runs.trans {w w' w'' : World} (h : Runs w w') (h' : Runs w' w'') : Runs w w'' :=
  ⟨h.ticks.trans h'.ticks, fun k hk => h'.busy k (h.busy k hk)⟩

/-- Nothing is in progress that was not, and nobody has asked for what they were initialising. -/
structure Clean (w w' : World) : Prop where
  settled : ∀ k, w'.slot k = some .initializing → w.slot k = some .initializing
  reentered : ∀ k, .reentered k ∈ w'.trace → .reentered k ∈ w.trace

theorem Clean.refl (w : World) : Clean w w := ⟨fun _ h => h, fun _ h => h⟩

theorem Clean.trans {w w' w'' : World} (h : Clean w w') (h' : Clean w' w'') : Clean w w'' :=
  ⟨fun k hk => h.settled k (h'.settled k hk), fun k hk => h.reentered k (h'.reentered k hk)⟩

/-- What a run that came to its end does. -/
structure Settles (w w' : World) : Prop extends Runs w w', Clean w w'

theorem Settles.refl (w : World) : Settles w w := ⟨.refl w, .refl w⟩

theorem Settles.trans {w w' w'' : World} (h : Settles w w') (h' : Settles w' w'') :
    Settles w w'' :=
  ⟨h.toRuns.trans h'.toRuns, h.toClean.trans h'.toClean⟩

theorem Settles.vacant {w w' : World} (h : Settles w w') {k : TypeId}
    (hk : w'.slot k = some .empty) : w.slot k = some .empty := by
  cases hw : w.slot k with
  | none => rw [(h.ticks.registered k).mpr hw] at hk; exact absurd hk (by simp)
  | some lock =>
    cases lock with
    | empty => rfl
    | initializing => rw [h.busy k hw] at hk; exact absurd hk (by simp)
    | full a => rw [h.ticks.full hw] at hk; exact absurd hk (by simp)

namespace Prog

variable {α : Type} {init : World → TypeId → World × Except Stop Resolution}

/-- A program does what its calls do, as often as it makes them. -/
theorem exec_rel {R : World → World → Prop} (hrefl : ∀ w, R w w)
    (htrans : ∀ {w w' w''}, R w w' → R w' w'' → R w w'') (hinit : ∀ w id, R w (init w id).1) :
    ∀ (p : Prog α) (w : World), R w (p.exec init w).1 := by
  intro p
  induction p with
  | ret a => intro w; exact hrefl w
  | panic => intro w; exact hrefl w
  | peek id k ih => intro w; exact ih _ w
  | resolve id k ih =>
    intro w
    have hcall := hinit w id
    rw [exec]
    rcases hi : init w id with ⟨w', e | r⟩
    · rw [hi] at hcall; exact hcall
    · rw [hi] at hcall; exact htrans hcall (ih r w')

/-- A run that came to its end got its lookups answered. -/
theorem exec_resolve_ok {id : TypeId} {k : Resolution → Prog α} {w w' : World} {o : Outcome α}
    (h : (Prog.resolve id k).exec init w = (w', .ok o)) :
    ∃ w₁ r, init w id = (w₁, .ok r) ∧ (k r).exec init w₁ = (w', .ok o) := by
  rw [exec] at h
  rcases hcall : init w id with ⟨w₁, e | r⟩
  · rw [hcall] at h
    cases h
  · rw [hcall] at h
    exact ⟨w₁, r, rfl, h⟩

/-- The same for runs that came to their end. -/
theorem exec_rel_ok {R : World → World → Prop} (hrefl : ∀ w, R w w)
    (htrans : ∀ {w w' w''}, R w w' → R w' w'' → R w w'')
    (hinit : ∀ w id w' r, init w id = (w', .ok r) → R w w') :
    ∀ (p : Prog α) (w w' : World) (o : Outcome α), p.exec init w = (w', .ok o) → R w w' := by
  intro p
  induction p with
  | ret a => intro w w' o h; cases h; exact hrefl w
  | panic => intro w w' o h; cases h; exact hrefl w
  | peek id k ih => intro w w' o h; exact ih _ w w' o h
  | resolve id k ih =>
    intro w w' o h
    obtain ⟨w₁, r, hcall, hrest⟩ := exec_resolve_ok h
    exact htrans (hinit w id w₁ r hcall) (ih r w₁ w' o hrest)

/-- A program stops short only if one of its calls does; `P` is what holds whenever it calls. -/
theorem exec_ne_error {P : World → Prop} {e : Stop} : ∀ (p : Prog α),
    (∀ id, p.Resolves id → ∀ w, P w → (init w id).2 ≠ .error e ∧
      ∀ w' r, init w id = (w', .ok r) → P w') →
    ∀ w, P w → (p.exec init w).2 ≠ .error e := by
  intro p
  induction p with
  | ret a => intro _ w _ h; cases h
  | panic => intro _ w _ h; cases h
  | peek id k ih => intro hcalls w hw; exact ih _ (fun id' h => hcalls id' ⟨_, h⟩) w hw
  | resolve id k ih =>
    intro hcalls w hw
    obtain ⟨hne, hnext⟩ := hcalls id (.inl rfl) w hw
    rw [exec]
    rcases hi : init w id with ⟨w', e' | r⟩
    · rw [hi] at hne
      exact fun h => hne (by cases h; rfl)
    · exact ih r (fun id' h => hcalls id' (.inr ⟨r, h⟩)) w' (hnext w' r hi)

/-- What a run returns is something the program can return. -/
theorem exec_returns : ∀ (p : Prog α) {w w' : World} {a : α},
    p.exec init w = (w', .ok (.returned a)) → p.Returns a := by
  intro p
  induction p with
  | ret b => intro w w' a h; cases h; exact rfl
  | panic => intro w w' a h; cases h
  | peek id k ih => intro w w' a h; exact ⟨_, ih _ h⟩
  | resolve id k ih =>
    intro w w' a h
    obtain ⟨w₁, r, -, hrest⟩ := exec_resolve_ok h
    exact ⟨r, ih r hrest⟩

theorem exec_bind {β : Type} (p : Prog α) (f : α → Prog β) (w : World) :
    (p >>= f).exec init w =
      match p.exec init w with
      | (w', .error e) => (w', .error e)
      | (w', .ok (.returned a)) => (f a).exec init w'
      | (w', .ok .panicked) => (w', .ok .panicked) := by
  induction p generalizing w with
  | ret a => rfl
  | panic => rfl
  | peek id k ih => exact ih _ w
  | resolve id k ih =>
    rw [resolve_bind, exec, exec]
    rcases init w id with ⟨w', e | r⟩
    · rfl
    · exact ih r w'

/-- What is bound is run where the first part returned; if that panicked, so did the whole. -/
theorem exec_bind_ok {β : Type} {p : Prog α} {f : α → Prog β} {w w' : World} {o : Outcome β}
    (h : (p >>= f).exec init w = (w', .ok o)) :
    (∃ w₁ a, p.exec init w = (w₁, .ok (.returned a)) ∧ (f a).exec init w₁ = (w', .ok o)) ∨
      p.exec init w = (w', .ok .panicked) ∧ o = .panicked := by
  rw [exec_bind] at h
  rcases hp : p.exec init w with ⟨w₁, e | ⟨a | _⟩⟩
  · rw [hp] at h
    cases h
  · rw [hp] at h
    exact .inl ⟨w₁, a, rfl, h⟩
  · rw [hp] at h
    cases h
    exact .inr ⟨rfl, rfl⟩

end Prog

namespace World

/-- **A `get_or_init` is a sequence of ticks**, and leaves alone what others are initialising —
which is why its own slot is still marked when its factory is done. -/
theorem getOrInit_runs (depth : Nat) (w : World) (id : TypeId) :
    Runs w (getOrInit depth w id).1 := by
  induction depth generalizing w id with
  | zero => exact .refl w
  | succ depth ih =>
    have hrun : ∀ f : Factory, Runs (w.enter id)
        ((f w.now).exec (getOrInit depth) (w.enter id)).1 :=
      fun f => Prog.exec_rel Runs.refl Runs.trans ih _ _
    rw [getOrInit]
    rcases initWith_cases (getOrInit depth) w id with
      ⟨-, h⟩ | ⟨a, hs, h⟩ | ⟨hs, h⟩ | ⟨-, -, h⟩ | ⟨f, w', hs, hf, hcase⟩
    · rw [h]; exact .refl w
    · rw [h]; exact ⟨.single (.hit hs), fun _ hk => hk⟩
    · rw [h]; exact ⟨.single (.reenter hs), fun _ hk => hk⟩
    · rw [h]; exact .refl w
    · have henter : Runs w (w.enter id) := by
        refine ⟨.single (.enter hs hf), fun k hk => ?_⟩
        rw [slot_enter]; split
        · rfl
        · exact hk
      have hfactory : Runs (w.enter id) w' := by
        have hrun := hrun f
        rcases hcase with ⟨e, he, -⟩ | ⟨a, he, -⟩ | ⟨he, -⟩
        all_goals rw [he] at hrun; exact hrun
      have hall := henter.trans hfactory
      have hbusy : w'.slot id = some .initializing :=
        hfactory.busy id (by rw [slot_enter, if_pos rfl])
      -- however the factory ends, the tick that follows is at a slot that nobody was busy with
      have hend : ∀ {lock : OnceLock AnyArc} {events : List Event},
          Tick w' (w'.setSlot id lock events) → Runs w (w'.setSlot id lock events) := by
        intro lock events htick
        refine ⟨hall.ticks.tail htick, fun k hk => ?_⟩
        rw [slot_setSlot, if_neg (fun heq => by rw [heq, hs] at hk; cases hk)]
        exact hall.busy k hk
      rcases hcase with ⟨e, -, h⟩ | ⟨a, ha, h⟩ | ⟨-, h⟩
      · rw [h]
        exact hall
      · have hf' : w'.container.factories.get id = some f := by
          rw [hall.ticks.rest.1]
          exact hf
        rw [h]
        exact hend (.finish hbusy hf' (Prog.exec_returns _ ha))
      · rw [h]
        exact hend (.unwind hbusy)

theorem getOrInit_clean {depth : Nat} {w w' : World} {id : TypeId} {r : Resolution}
    (hcall : getOrInit depth w id = (w', .ok r)) : Clean w w' := by
  induction depth generalizing w w' id r with
  | zero => cases hcall
  | succ depth ih =>
    rw [getOrInit] at hcall
    have hinner : ∀ {f : Factory} {w₁ : World} {o : Outcome AnyArc},
        (f w.now).exec (getOrInit depth) (w.enter id) = (w₁, .ok o) → Clean (w.enter id) w₁ :=
      fun ho => Prog.exec_rel_ok Clean.refl Clean.trans (fun _ _ _ _ h => ih h) _ _ _ _ ho
    -- the factory's own slot is the one thing in progress between `enter` and the end
    have hend : ∀ {w₁ : World} {lock : OnceLock AnyArc} {events : List Event},
        Clean (w.enter id) w₁ → lock ≠ .initializing → (∀ k, .reentered k ∉ events) →
        Clean w (w₁.setSlot id lock events) := by
      intro w₁ lock events hw₁ hlock hevents
      constructor
      · intro k hk
        rw [slot_setSlot] at hk
        split at hk
        · exact absurd (Option.some.inj hk) hlock
        · have := hw₁.settled k hk
          rwa [slot_enter, if_neg ‹_›] at this
      · intro k hk
        rcases List.mem_append.mp hk with hk | hk
        · exact absurd hk (hevents k)
        · simpa [enter, setSlot] using hw₁.reentered k hk
    rcases initWith_cases (getOrInit depth) w id with
      ⟨-, h⟩ | ⟨a, -, h⟩ | ⟨-, h⟩ | ⟨-, -, h⟩ | ⟨f, w₁, -, -, ⟨e, -, h⟩ | ⟨a, ha, h⟩ | ⟨hp, h⟩⟩
    all_goals rw [h] at hcall; cases hcall
    · exact .refl w
    · exact ⟨fun _ hk => hk, fun k hk => by simpa [hit] using hk⟩
    · exact .refl w
    · exact hend (hinner ha) (by simp) (by simp)
    · exact hend (hinner hp) (by simp) (by simp)

theorem getOrInit_settles {depth : Nat} {w w' : World} {id : TypeId} {r : Resolution}
    (h : getOrInit depth w id = (w', .ok r)) : Settles w w' := by
  have hruns := getOrInit_runs depth w id
  rw [h] at hruns
  exact ⟨hruns, getOrInit_clean h⟩

theorem getOrInit_ready {depth : Nat} {w w' : World} {id : TypeId} {a : AnyArc}
    (hcall : getOrInit depth w id = (w', .ok (.ready a))) : w'.slot id = some (.full a) := by
  cases depth with
  | zero => cases hcall
  | succ depth =>
    rw [getOrInit] at hcall
    rcases initWith_cases (getOrInit depth) w id with
      ⟨-, h⟩ | ⟨a, hs, h⟩ | ⟨-, h⟩ | ⟨-, -, h⟩ | ⟨f, w₁, -, -, ⟨e, -, h⟩ | ⟨a, -, h⟩ | ⟨-, h⟩⟩
    all_goals rw [h] at hcall; cases hcall
    · exact hs
    · rw [slot_finish, if_pos rfl]

/-! ## The fuel is enough -/

def isVacant (w : World) (id : TypeId) : Bool :=
  match w.slot id with
  | some .empty => true
  | _ => false

/-- The slots an initialisation could still begin at. -/
def vacant (w : World) : Finset TypeId := w.container.singletons.keys.filter (w.isVacant ·)

theorem isVacant_iff {w : World} {id : TypeId} : w.isVacant id ↔ w.slot id = some .empty := by
  unfold isVacant
  split
  · simpa
  · rename_i hne
    exact ⟨fun h => absurd h (by simp), fun h => absurd h hne⟩

theorem mem_vacant {w : World} {id : TypeId} : id ∈ w.vacant ↔ w.slot id = some .empty := by
  rw [vacant, Finset.mem_filter, Finmap.mem_keys, isVacant_iff]
  exact ⟨fun h => h.2, fun h => ⟨HashMap.mem_of_get h, h⟩⟩

theorem vacant_enter {w : World} {id : TypeId} (h : w.slot id = some .empty) :
    (w.enter id).vacant.card < w.vacant.card := by
  refine Finset.card_lt_card ⟨fun k hk => ?_, fun hsub => ?_⟩
  · rw [mem_vacant, slot_enter] at hk
    split at hk
    · cases hk
    · exact mem_vacant.mpr hk
  · have := mem_vacant.mp (hsub (mem_vacant.mpr h))
    rw [slot_enter, if_pos rfl] at this
    cases this

theorem vacant_settles {w w' : World} (h : Settles w w') : w'.vacant.card ≤ w.vacant.card :=
  Finset.card_le_card fun _ hk => mem_vacant.mpr (h.vacant (mem_vacant.mp hk))

theorem getOrInit_fuel {depth : Nat} {w : World} (id : TypeId) (h : w.vacant.card < depth) :
    (getOrInit depth w id).2 ≠ .error .outOfFuel := by
  induction depth generalizing w id with
  | zero => exact absurd h (Nat.not_lt_zero _)
  | succ depth ih =>
    rw [getOrInit]
    rcases initWith_cases (getOrInit depth) w id with
      ⟨-, h'⟩ | ⟨a, -, h'⟩ | ⟨-, h'⟩ | ⟨-, -, h'⟩ |
        ⟨f, w₁, hs, -, ⟨e, he, h'⟩ | ⟨a, -, h'⟩ | ⟨-, h'⟩⟩
    all_goals rw [h']
    case inr.inr.inr.inr.inl =>
      have hlt := vacant_enter hs
      have := Prog.exec_ne_error (P := fun w => w.vacant.card < depth) (e := .outOfFuel)
        (f w.now) (fun id' _ w' hw' => ⟨ih id' hw', fun w'' r hr =>
          Nat.lt_of_le_of_lt (vacant_settles (getOrInit_settles hr)) hw'⟩) (w.enter id) (by omega)
      rw [he] at this
      exact fun h => this (by cases h; rfl)
    all_goals simp

theorem vacant_le_len (w : World) : w.vacant.card < w.container.singletons.len + 1 :=
  Nat.lt_succ_of_le (Finset.card_le_card (Finset.filter_subset _ _))

variable {α : Type}

/-- **A run is never out of fuel.** -/
theorem run_fuel (w : World) (p : Prog α) : (w.run p).2 ≠ .error .outOfFuel :=
  Prog.exec_ne_error (P := fun w' => w'.vacant.card < w.container.singletons.len + 1) p
    (fun id _ _ hw' => ⟨getOrInit_fuel id hw', fun _ _ hr =>
      Nat.lt_of_le_of_lt (vacant_settles (getOrInit_settles hr)) hw'⟩) w (vacant_le_len w)

theorem run_runs (w : World) (p : Prog α) : Runs w (w.run p).1 :=
  Prog.exec_rel Runs.refl Runs.trans (getOrInit_runs _) p w

theorem run_settles {w w' : World} {p : Prog α} {o : Outcome α} (h : w.run p = (w', .ok o)) :
    Settles w w' :=
  Prog.exec_rel_ok Settles.refl Settles.trans (fun _ _ _ _ hr => getOrInit_settles hr) p w w' o h

/-! ## Nothing to come back to -/

end World

/-- On some branch, at some point of the history, `a`'s factory asks for `b`. -/
def Container.Asks (c : Container) (a b : TypeId) : Prop :=
  ∃ f now, c.factories.get a = some f ∧ (f now).Resolves b

theorem Container.asks_congr {c c' : Container} (h : c'.factories = c.factories) :
    c'.Asks = c.Asks := by
  unfold Container.Asks
  rw [h]

namespace World

def Idle (w : World) : Prop := ∀ k, w.slot k ≠ some .initializing

theorem idle_built (setups : List Setup) : (start (Container.built setups)).Idle :=
  Container.built_ne_initializing setups

theorem Idle.settles {w w' : World} (h : w.Idle) (hw : Settles w w') : w'.Idle :=
  fun k hk => h k (hw.settled k hk)

/-- **No descent, no deadlock**: if factories ask in no circle, and nothing in progress can be
asked for from here, `get_or_init` comes back. -/
theorem getOrInit_ne_deadlocked {depth : Nat} {w : World} {id : TypeId}
    (hac : Acyclic w.container.Asks)
    (hfree : ∀ k, w.slot k = some .initializing → ¬ ReflTransGen w.container.Asks id k) :
    (getOrInit depth w id).2 ≠ .error .deadlocked := by
  induction depth generalizing w id with
  | zero => simp [getOrInit]
  | succ depth ih =>
    rw [getOrInit]
    rcases initWith_cases (getOrInit depth) w id with
      ⟨-, h⟩ | ⟨a, -, h⟩ | ⟨hs, -⟩ | ⟨-, -, h⟩ |
        ⟨f, w₁, hs, hf, ⟨e, he, h⟩ | ⟨a, -, h⟩ | ⟨-, h⟩⟩
    case inr.inr.inl => exact absurd .refl (hfree id hs)
    all_goals rw [h]
    case inr.inr.inr.inr.inl =>
      -- while the factory runs, what is in progress is what was, and its own slot
      have := @Prog.exec_ne_error _ (getOrInit depth)
        (fun w' => w'.container.Asks = w.container.Asks ∧
          ∀ k, w'.slot k = some .initializing → k = id ∨ w.slot k = some .initializing)
        .deadlocked (f w.now) (fun b hb w' hw' => ?_) (w.enter id) ?_
      · rw [he] at this
        exact fun h => this (by cases h; rfl)
      · have hask : w.container.Asks id b := ⟨f, w.now, hf, hb⟩
        refine ⟨ih (hw'.1 ▸ hac) fun k hk => ?_, fun w'' r hr => ?_⟩
        · rw [hw'.1]
          intro hreach
          rcases hw'.2 k hk with rfl | hk
          · exact hac _ (TransGen.head' hask hreach)
          · exact hfree k hk (.head hask hreach)
        · have hset := getOrInit_settles hr
          exact ⟨(Container.asks_congr hset.ticks.rest.1).trans hw'.1,
            fun k hk => hw'.2 k (hset.settled k hk)⟩
      · refine ⟨rfl, fun k hk => ?_⟩
        rw [slot_enter] at hk
        split at hk
        · exact .inl ‹_›
        · exact .inr hk
    all_goals simp

/-- **A run comes to its end** when factories ask in no circle. -/
theorem run_ends {α : Type} {w : World} (hac : Acyclic w.container.Asks) (hidle : w.Idle)
    (p : Prog α) : ∃ w' o, w.run p = (w', .ok o) := by
  have hdead : (w.run p).2 ≠ .error .deadlocked :=
    Prog.exec_ne_error (P := fun w' => w'.container.Asks = w.container.Asks ∧ w'.Idle) p
      (fun id _ w' hw' => ⟨getOrInit_ne_deadlocked (hw'.1 ▸ hac)
        (fun k hk => absurd hk (hw'.2 k)), fun w'' r hr =>
          have hset := getOrInit_settles hr
          ⟨(Container.asks_congr hset.ticks.rest.1).trans hw'.1, hw'.2.settles hset⟩⟩)
      w ⟨rfl, hidle⟩
  have hfuel := run_fuel w p
  rcases hrun : w.run p with ⟨w', e | o⟩
  · rw [hrun] at hdead hfuel
    cases e with
    | deadlocked => exact absurd rfl hdead
    | outOfFuel => exact absurd rfl hfuel
  · exact ⟨w', o, rfl⟩

end World

end Di
end StanoPlatform
