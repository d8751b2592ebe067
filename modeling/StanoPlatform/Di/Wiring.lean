import StanoPlatform.Di.Warm

/-!
# `Di/Wiring.lean` — what an instance is made of

`Di/Coherence.lean` says that a component has one instance, and nothing of what is in it. A factory
that gives up where a lookup fails can only have come to its end on instances that were there, and
what is in a slot stays in it. So every instance is what its factory makes of the instances that
are in the slots *now* (`World.Wired`), whichever thread built it and whoever was first: filled on
demand or all at once, the slots agree with the factories.

It is the bridge that the macros need (`Macros/Wiring.lean`): they generate factories of this kind
and no others. A factory that was written by hand may catch a failed lookup and go on, and then what
it has built depends on who was first.
-/

set_option autoImplicit false

namespace StanoPlatform
namespace Di

open Lib Relation

/-! ## Factories that give up -/

/-- It never asks whether a slot is set, and panics where it gets no instance. -/
def Prog.Strict {α : Type} : Prog α → Prop
  | .ret _ | .panic => True
  | .peek _ _ => False
  | .resolve _ k => k .unregistered = .panic ∧ k .panicked = .panic ∧ ∀ a, (k (.ready a)).Strict

theorem Prog.Strict.bind {α β : Type} {f : α → Prog β} (hf : ∀ a, (f a).Strict) :
    ∀ {p : Prog α}, p.Strict → (p >>= f).Strict := by
  intro p
  induction p with
  | ret a => intro _; exact hf a
  | panic => intro _; trivial
  | peek id k ih => intro h; exact h.elim
  | resolve id k ih =>
    rintro ⟨hunregistered, hpanicked, hready⟩
    refine ⟨?_, ?_, fun a => ih _ (hready a)⟩
    · show k .unregistered >>= f = .panic
      rw [hunregistered]
      rfl
    · show k .panicked >>= f = .panic
      rw [hpanicked]
      rfl

namespace Dep

theorem strict_get (d : Dep) : d.get.Strict := by
  cases d with
  | concrete T clone =>
    refine ⟨rfl, rfl, fun a => ?_⟩
    cases hd : a.downcast T <;> · simp only [hd]; trivial
  | dynTrait U =>
    refine ⟨rfl, rfl, fun a => ?_⟩
    cases hd : a.downcast (.arc U) <;> · simp only [hd]; trivial

theorem strict_getAll : ∀ deps : List Dep, (getAll deps).Strict := by
  intro deps
  induction deps with
  | nil => trivial
  | cons d ds ih =>
    refine d.strict_get.bind fun a => ih.bind fun as => ?_
    exact True.intro

end Dep

theorem strict_generated (deps : List Dep) (panics : Bool)
    (make : Nat → List AnyArc → AnyArc) (now : Nat) : (generated deps panics make now).Strict := by
  refine (Dep.strict_getAll deps).bind fun fields => ?_
  split <;> trivial

def Container.Strict (c : Container) : Prop :=
  ∀ id f, c.factories.get id = some f → ∀ now, (f now).Strict

theorem Container.Generated.strict {c : Container} {panics : TypeId → Bool}
    (h : c.Generated panics) : c.Strict := by
  intro id f hf now
  obtain ⟨deps, make, -, rfl⟩ := h id f hf
  exact strict_generated deps (panics id) make now

/-! ## What is left of a factory -/

theorem World.answer_eq_ready {w : World} {id : TypeId} {a : AnyArc} :
    w.answer id = .ready a ↔ w.slot id = some (.full a) := by
  unfold World.answer
  rcases w.slot id with _ | _ | _ | b <;> simp

/-- What is left of `p` after some lookups, each answered with what is in its slot. -/
inductive Prog.Left {α : Type} (w : World) (p : Prog α) : Prog α → Prop
  | all : Left w p p
  | answered {id : TypeId} {k : Resolution → Prog α} {a : AnyArc}
      (h : Left w p (.resolve id k)) (hs : w.slot id = some (.full a)) : Left w p (k (.ready a))

section

variable {α : Type} {w w' : World} {p q : Prog α}

theorem Prog.Left.mono (h : p.Left w q) (hticks : Ticks w w') : p.Left w' q := by
  induction h with
  | all => exact .all
  | answered _ hs ih => exact .answered ih (hticks.full hs)

theorem Prog.Left.strict (h : p.Left w q) (hp : p.Strict) : q.Strict := by
  induction h with
  | all => exact hp
  | answered _ _ ih => exact ih.2.2 _

/-- Nothing has been looked up that would be answered differently now. -/
theorem Prog.Left.lookups (h : p.Left w q) :
    (p.lookups w.answer).2 = (q.lookups w.answer).2 := by
  induction h with
  | all => rfl
  | @answered id k a _ hs ih =>
    rw [ih, Prog.lookups, World.answer_eq_ready.mpr hs]

end

/-! ## Wiring -/

/-- Every instance that was not there from the start is what the factory registered for it has made
of instances that are there. -/
def World.Wired (w₀ w : World) : Prop :=
  ∀ id a, w.slot id = some (.full a) → w₀.slot id = some (.full a) ∨
    ∃ f now, w₀.container.factories.get id = some f ∧ (f now).Left w (.ret a)

/-- Every factory that waits has so far been answered with what is in the slots. -/
def Caller.Wired (w : World) : Caller → TypeId → Prop
  | .client _, _ => True
  | .factory id f k below, top =>
    (∃ now, (f now).Strict ∧ (f now).Left w (.resolve top k)) ∧ below.Wired w id

/-- So has the one that runs, unless it is giving up. -/
def Thread.Wired (w : World) : Thread → Prop
  | .client _ => True
  | .factory id f p caller =>
    (p = .panic ∨ ∃ now, (f now).Strict ∧ (f now).Left w p) ∧ caller.Wired w id

section

variable {w₀ w w' : World}

theorem World.Wired.start (w : World) : World.Wired w w := fun _ _ hs => .inl hs

/-- Slots in which nothing new is found. -/
theorem World.Wired.frame (h : World.Wired w₀ w) (hticks : Ticks w w')
    (hslots : ∀ id a, w'.slot id = some (.full a) → w.slot id = some (.full a)) :
    World.Wired w₀ w' := by
  intro id a hs
  rcases h id a (hslots id a hs) with hs | ⟨f, now, hf, hleft⟩
  · exact .inl hs
  · exact .inr ⟨f, now, hf, hleft.mono hticks⟩

theorem Caller.Wired.mono (hticks : Ticks w w') : ∀ {caller : Caller} {top : TypeId},
    caller.Wired w top → caller.Wired w' top := by
  intro caller
  induction caller with
  | client k => intro top _; trivial
  | factory id f k below ih =>
    rintro top ⟨⟨now, hstrict, hleft⟩, hbelow⟩
    exact ⟨⟨now, hstrict, hleft.mono hticks⟩, ih hbelow⟩

theorem Thread.Wired.mono (hticks : Ticks w w') {t : Thread} (h : t.Wired w) : t.Wired w' := by
  cases t with
  | client p => trivial
  | factory id f p caller =>
    obtain ⟨hp, hcaller⟩ := h
    refine ⟨hp.imp_right ?_, hcaller.mono hticks⟩
    rintro ⟨now, hstrict, hleft⟩
    exact ⟨now, hstrict, hleft.mono hticks⟩

/-- A caller goes on with the instance that is in the slot, or not at all. -/
theorem Caller.Wired.resume {caller : Caller} {top : TypeId} (h : caller.Wired w top)
    {r : Resolution} (hr : ∀ a, r = .ready a → w.slot top = some (.full a)) :
    (caller.resume r).Wired w := by
  cases caller with
  | client k => trivial
  | factory id f k below =>
    obtain ⟨⟨now, hstrict, hleft⟩, hbelow⟩ := h
    obtain ⟨hunregistered, hpanicked, -⟩ := hleft.strict hstrict
    refine ⟨?_, hbelow⟩
    cases r with
    | unregistered => exact .inl hunregistered
    | panicked => exact .inl hpanicked
    | ready a => exact .inr ⟨now, hstrict, .answered hleft (hr a rfl)⟩

theorem World.call_wired (hw : World.Wired w₀ w) (hstrict : w.container.Strict)
    (caller : Caller) {id : TypeId} (hcaller : caller.Wired w id) (hticks : Ticks w w')
    {t : Thread} (h : w.call id caller = some (w', t)) : World.Wired w₀ w' ∧ t.Wired w' := by
  unfold World.call at h
  split at h
  · cases h
    exact ⟨hw, hcaller.resume (by simp)⟩
  -- the slot is full: the caller is handed what is in it
  · rename_i a hs
    cases h
    refine ⟨hw.frame hticks fun _ _ h => h, (hcaller.mono hticks).resume ?_⟩
    intro b hb
    cases hb
    exact hs
  · cases h
  · split at h
    · cases h
      exact ⟨hw, hcaller.resume (by simp)⟩
    -- the slot is empty: its factory starts, with all of its lookups ahead
    · rename_i f hf
      cases h
      refine ⟨hw.frame hticks fun k a hk => ?_, .inr ⟨w.now, hstrict id f hf w.now, .all⟩,
        hcaller.mono hticks⟩
      rw [World.slot_enter] at hk
      split at hk
      · cases hk
      · exact hk

/-- **What a step builds is made of what is there.** -/
theorem Thread.step_wired (hw : World.Wired w₀ w)
    (hfactories : w.container.factories = w₀.container.factories) (hstrict : w.container.Strict)
    {t t' : Thread} (hl : t.Lawful w.container.factories) (ht : t.Wired w) (hticks : Ticks w w')
    (h : t.step w = some (w', t')) : World.Wired w₀ w' ∧ t'.Wired w' := by
  cases t with
  | client p =>
    cases p with
    | ret a | panic => cases h
    | peek id k => cases h; exact ⟨hw, trivial⟩
    | resolve id k => exact World.call_wired hw hstrict (.client k) trivial hticks h
  | factory id f p caller =>
    obtain ⟨hp, hcaller⟩ := ht
    cases p with
    | panic =>
      cases h
      refine ⟨hw.frame hticks fun k a hk => ?_, (hcaller.mono hticks).resume (by simp)⟩
      rw [World.slot_unwind] at hk
      split at hk
      · cases hk
      · exact hk
    | ret a =>
      -- what the factory returns is made of what its lookups found, and that is in the slots still
      obtain ⟨now, -, hleft⟩ := hp.resolve_left (by simp)
      cases h
      have hslot := fun k => World.slot_finish w id k f a
      refine ⟨fun k b hk => ?_, (hcaller.mono hticks).resume fun b hb => ?_⟩
      · by_cases hkid : k = id
        · subst hkid
          rw [hslot, if_pos rfl] at hk
          cases hk
          exact .inr ⟨f, now, hfactories ▸ hl.1, hleft.mono hticks⟩
        · rw [hslot, if_neg hkid] at hk
          exact (hw k b hk).imp_right fun ⟨g, now, hg, hleft⟩ => ⟨g, now, hg, hleft.mono hticks⟩
      · cases hb
        rw [hslot, if_pos rfl]
    | peek id' k =>
      obtain ⟨now, hstrict', hleft⟩ := hp.resolve_left (by simp)
      -- a strict factory does not ask whether a slot is set
      exact (hleft.strict hstrict').elim
    | resolve id' k =>
      obtain ⟨now, hstrict', hleft⟩ := hp.resolve_left (by simp)
      exact World.call_wired hw hstrict (.factory id f k caller)
        ⟨⟨now, hstrict', hleft⟩, hcaller⟩ hticks h

end

namespace Machine

variable {ι : Type} [DecidableEq ι]

/-- **Every instance is made of the instances everybody sees**, whatever the interleaving. -/
theorem wired {c : Container} (hidle : (World.start c).Idle) (hstrict : c.Strict)
    (programs : ι → Prog Unit) {m : Machine ι} (hm : Steps (start c programs) m) :
    World.Wired (World.start c) m.world ∧ ∀ i, (m.threads i).Wired m.world := by
  induction hm with
  | refl => exact ⟨.start _, fun _ => trivial⟩
  | @tail m m' hm hstep ih =>
    have hinv := ((inv_start hidle programs).steps hm).1
    have hticks := (hinv.step hstep).2
    obtain @⟨w', t', i, h⟩ := hstep
    obtain ⟨hw, hthreads⟩ := ih
    have hfactories : m.world.container.Strict := by
      intro id f hf
      exact hstrict id f (hinv.factories ▸ hf)
    obtain ⟨hw', ht'⟩ := Thread.step_wired hw hinv.factories hfactories
      (hinv.factories ▸ hinv.lawful i) (hthreads i) hticks h
    refine ⟨hw', fun j => ?_⟩
    -- the other threads hold instances of before, and these stay where they are
    by_cases hj : j = i
    · subst hj
      simpa only [Function.update_self] using ht'
    · simp only [Function.update_of_ne hj]
      exact (hthreads j).mono hticks

end Machine

/-! ## One thread -/

theorem Prog.exec_caught {α : Type} {init : World → TypeId → World × Except Stop Resolution} :
    ∀ {p : Prog α} {w w' : World} {o : Outcome α}, p.exec init w = (w', .ok o) →
      p.caught.exec init w = (w', .ok (.returned ())) := by
  intro p
  induction p with
  | ret a | panic => intro w w' o h; cases h; rfl
  | peek id k ih => intro w w' o h; exact ih _ h
  | resolve id k ih =>
    intro w w' o h
    obtain ⟨w₁, r, hcall, hrest⟩ := Prog.exec_resolve_ok h
    rw [Prog.caught, Prog.exec, hcall]
    exact ih r hrest

theorem World.run_wired {α : Type} {c : Container} (hidle : (World.start c).Idle)
    (hstrict : c.Strict) {p : Prog α} {w : World} {o : Outcome α}
    (h : (World.start c).run p = (w, .ok o)) : World.Wired (World.start c) w :=
  (Machine.wired hidle hstrict (fun _ : Unit => p.caught)
    (Machine.run_steps (Prog.exec_caught h) _ () rfl)).1

end Di
end StanoPlatform
