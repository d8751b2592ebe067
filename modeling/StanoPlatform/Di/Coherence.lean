import StanoPlatform.Di.World

/-!
# `Di/Coherence.lean` — one instance per component

An instance is captured wherever it was resolved — in the hands of a client, inside a component
built three factories down — so "everybody sees the same one" is a statement about the history
and not about the slots. `History` relates the two, key by key: nothing was handed out before the
slot was full, and everything handed out since is what is in it. It is preserved by every tick,
so it holds of every run, however nested, whatever panicked on the way.

Nothing is assumed of the factories but that they are programs (`Di/Prog.lean`): they may look up
what they like, catch panics and panic. A run may have any number of threads in it. That an instance
is never taken out of a slot, or put in twice, is what `OnceLock` gives and `Tick` has.
-/

set_option autoImplicit false

namespace StanoPlatform
namespace Di

open Lib Relation

/-- The factory and the instance, if this is a successful return of `id`'s factory. -/
def Event.build? (id : TypeId) : Event → Option (Factory × AnyArc)
  | .built id' f a => if id' = id then some (f, a) else none
  | _ => none

def Event.resolution? (id : TypeId) : Event → Option AnyArc
  | .resolved id' a => if id' = id then some a else none
  | _ => none

namespace World

def builds (w : World) (id : TypeId) : List (Factory × AnyArc) :=
  w.trace.filterMap (Event.build? id)

/-- What `id` has been resolved to so far, directly or inside any factory. -/
def resolutions (w : World) (id : TypeId) : List AnyArc :=
  w.trace.filterMap (Event.resolution? id)

/-! What a tick adds to either: a successful `get_or_init` one resolution, a successful factory one
build and the resolution that asked for it. The others add nothing, by `rfl`. -/

theorem builds_finish (w : World) (id k : TypeId) (f : Factory) (a : AnyArc) :
    (w.finish id f a).builds k = if id = k then (f, a) :: w.builds k else w.builds k := by
  show List.filterMap _ (.resolved id a :: .built id f a :: w.trace) = _
  rw [List.filterMap_cons_none rfl, List.filterMap_cons]
  by_cases hk : id = k
  · rw [if_pos hk, Event.build?, if_pos hk]; rfl
  · rw [if_neg hk, Event.build?, if_neg hk]; rfl

theorem resolutions_hit (w : World) (id k : TypeId) (a : AnyArc) :
    (w.hit id a).resolutions k = if id = k then a :: w.resolutions k else w.resolutions k := by
  show List.filterMap _ (.resolved id a :: w.trace) = _
  rw [List.filterMap_cons]
  by_cases hk : id = k
  · rw [if_pos hk, Event.resolution?, if_pos hk]; rfl
  · rw [if_neg hk, Event.resolution?, if_neg hk]; rfl

theorem resolutions_finish (w : World) (id k : TypeId) (f : Factory) (a : AnyArc) :
    (w.finish id f a).resolutions k = if id = k then a :: w.resolutions k else w.resolutions k :=
  resolutions_hit w id k a

theorem mem_resolutions {w : World} {id : TypeId} {a : AnyArc} :
    a ∈ w.resolutions id ↔ .resolved id a ∈ w.trace := by
  rw [resolutions, List.mem_filterMap]
  constructor
  · rintro ⟨e, he, hres⟩
    cases e with
    | resolved id' b =>
      rw [Event.resolution?] at hres
      split at hres
      · rename_i hid
        rw [← hid, ← Option.some.inj hres]
        exact he
      · cases hres
    | _ => cases hres
  · intro he
    exact ⟨_, he, by rw [Event.resolution?, if_pos rfl]⟩

end World

theorem Tick.trace {w w' : World} (h : Tick w w') : w.trace <:+ w'.trace := by
  cases h with
  | hit | enter | unwind | reenter => exact List.suffix_cons _ _
  | finish => exact List.suffix_append [_, _] _

theorem Ticks.trace {w w' : World} (h : Ticks w w') : w.trace <:+ w'.trace := by
  induction h with
  | refl => exact List.suffix_rfl
  | tail _ ht ih => exact ih.trans ht.trace

/-- What the history says of one key, given the world it started in. -/
inductive History (w₀ w : World) (id : TypeId) : Prop
  -- not resolved yet: nobody has been given anything
  | pending (hs : ∀ a, w.slot id ≠ some (.full a)) (hb : w.builds id = [])
      (hr : w.resolutions id = [])
  -- full from the start: its factory never runs
  | given (a : AnyArc) (h₀ : w₀.slot id = some (.full a)) (hs : w.slot id = some (.full a))
      (hb : w.builds id = []) (hr : ∀ b ∈ w.resolutions id, b = a)
      (he : .entered id ∉ w.trace)
  -- built, once
  | made (f : Factory) (a : AnyArc) (h₀ : ∀ b, w₀.slot id ≠ some (.full b))
      (hf : w₀.container.factories.get id = some f) (hs : w.slot id = some (.full a))
      (hb : w.builds id = [(f, a)]) (hr : ∀ b ∈ w.resolutions id, b = a)

namespace History

variable {w₀ w w' : World} {id : TypeId}

theorem start {c : Container} (id : TypeId) : History (World.start c) (World.start c) id := by
  by_cases h : ∃ a, (World.start c).slot id = some (.full a)
  · obtain ⟨a, ha⟩ := h
    exact .given a ha ha rfl (fun b hb => absurd hb (by simp [World.start, World.resolutions]))
      (by simp [World.start])
  · exact .pending (fun a ha => h ⟨a, ha⟩) rfl rfl

/-- A tick that leaves a key's slot and history alone leaves what is said of it alone. -/
theorem frame (h : History w₀ w id) (hs : w'.slot id = w.slot id)
    (hb : w'.builds id = w.builds id) (hr : w'.resolutions id = w.resolutions id)
    (he : .entered id ∈ w'.trace → .entered id ∈ w.trace) : History w₀ w' id := by
  cases h with
  | pending hs' hb' hr' => exact .pending (hs ▸ hs') (hb ▸ hb') (hr ▸ hr')
  | given a h₀ hs' hb' hr' he' =>
    exact .given a h₀ (hs ▸ hs') (hb ▸ hb') (hr ▸ hr') (fun h => he' (he h))
  | made f a h₀ hf hs' hb' hr' => exact .made f a h₀ hf (hs ▸ hs') (hb ▸ hb') (hr ▸ hr')

/-- Nothing is known of a slot that is not full but that nobody was given anything. -/
theorem nothing (h : History w₀ w id) (hs : ∀ a, w.slot id ≠ some (.full a)) :
    w.builds id = [] ∧ w.resolutions id = [] := by
  cases h with
  | pending _ hb hr => exact ⟨hb, hr⟩
  | given a _ hs' => exact absurd hs' (hs a)
  | made f a _ _ hs' => exact absurd hs' (hs a)

/-- A slot that is full is the same for everybody who looks. -/
theorem hit {a : AnyArc} (h : History w₀ w id) (hs : w.slot id = some (.full a)) :
    History w₀ (w.hit id a) id := by
  have hres : (w.hit id a).resolutions id = a :: w.resolutions id := by
    rw [World.resolutions_hit, if_pos rfl]
  cases h with
  | pending hs' => exact absurd hs (hs' a)
  | given b h₀ hs' hb hr he =>
    rw [hs] at hs'
    cases hs'
    exact .given a h₀ hs hb (by rw [hres]; simpa using hr) (by simpa [World.hit] using he)
  | made f b h₀ hf hs' hb hr =>
    rw [hs] at hs'
    cases hs'
    exact .made f a h₀ hf hs hb (by rw [hres]; simpa using hr)

/-- **What a tick does to one key's history.** -/
theorem tick (h : History w₀ w id) (hticks : Ticks w₀ w) (ht : Tick w w') :
    History w₀ w' id := by
  cases ht with
  | @hit id' b hs =>
    by_cases hid : id' = id
    · subst hid
      exact h.hit hs
    -- another slot: what this one has in its history stays as it is
    · refine h.frame rfl rfl ?_ (by simp [World.hit])
      rw [World.resolutions_hit, if_neg hid]
  | @enter id' f hs hf =>
    by_cases hid : id' = id
    · subst hid
      obtain ⟨hb, hr⟩ := h.nothing (by rw [hs]; simp)
      exact .pending (by rw [World.slot_enter, if_pos rfl]; simp) hb hr
    · refine h.frame ?_ rfl rfl (by simp [World.enter, World.setSlot, Ne.symm hid])
      rw [World.slot_enter, if_neg (Ne.symm hid)]
  | @finish id' f now a hs hf ha =>
    by_cases hid : id' = id
    · subst hid
      obtain ⟨hb, hr⟩ := h.nothing (by rw [hs]; simp)
      -- the one step that fills a slot, which was empty before, so nothing was handed out of it
      refine .made f a (fun b hb₀ => ?_) (hticks.rest.1 ▸ hf) ?_ ?_ ?_
      · rw [hticks.full hb₀] at hs
        cases hs
      · rw [World.slot_finish, if_pos rfl]
      · rw [World.builds_finish, if_pos rfl, hb]
      · rw [World.resolutions_finish, if_pos rfl, hr]
        simp
    · refine h.frame ?_ ?_ ?_ (by simp [World.finish, World.setSlot])
      · rw [World.slot_finish, if_neg (Ne.symm hid)]
      · rw [World.builds_finish, if_neg hid]
      · rw [World.resolutions_finish, if_neg hid]
  | @unwind id' hs =>
    by_cases hid : id' = id
    · subst hid
      obtain ⟨hb, hr⟩ := h.nothing (by rw [hs]; simp)
      exact .pending (by rw [World.slot_unwind, if_pos rfl]; simp) hb hr
    · refine h.frame ?_ rfl rfl (by simp [World.unwind, World.setSlot])
      rw [World.slot_unwind, if_neg (Ne.symm hid)]
  | @reenter id' hs => exact h.frame rfl rfl rfl (by simp [World.reenter])

/-- **The history of every run**, key by key. -/
theorem ticks {c : Container} {w : World} (h : Ticks (World.start c) w) (id : TypeId) :
    History (World.start c) w id := by
  induction h with
  | refl => exact .start id
  | tail hticks ht ih => exact ih.tick hticks ht

/-! What a history says, by how the slot was at the start. -/

theorem builds_le (h : History w₀ w id) : (w.builds id).length ≤ 1 := by
  cases h with
  | pending _ hb | given _ _ _ hb | made _ _ _ _ _ hb => simp [hb]

theorem agree (h : History w₀ w id) :
    ∀ a ∈ w.resolutions id, ∀ b ∈ w.resolutions id, a = b := by
  cases h with
  | pending _ _ hr => simp [hr]
  | given a _ _ _ hr | made _ a _ _ _ _ hr =>
    exact fun b hb c hc => (hr b hb).trans (hr c hc).symm

theorem of_full (h : History w₀ w id) (hticks : Ticks w₀ w) {a : AnyArc}
    (h₀ : w₀.slot id = some (.full a)) :
    (∀ b ∈ w.resolutions id, b = a) ∧ .entered id ∉ w.trace := by
  cases h with
  | pending hs => exact absurd (hticks.full h₀) (hs a)
  | given b hb _ _ hr he =>
    rw [h₀] at hb
    cases hb
    exact ⟨hr, he⟩
  | made _ _ hempty => exact absurd h₀ (hempty a)

theorem of_empty (h : History w₀ w id) (h₀ : w₀.slot id = some .empty) :
    ∀ a ∈ w.resolutions id,
      ∃ f, w₀.container.factories.get id = some f ∧ w.builds id = [(f, a)] := by
  cases h with
  | pending _ _ hr => simp [hr]
  | given a hfull => rw [h₀] at hfull; cases hfull
  | made f a _ hf _ hb hr =>
    intro b hb'
    exact ⟨f, hf, hr b hb' ▸ hb⟩

theorem of_none (h : History w₀ w id) (hticks : Ticks w₀ w) (h₀ : w₀.slot id = none) :
    w.resolutions id = [] := by
  cases h with
  | pending _ _ hr => exact hr
  | given a hfull => rw [h₀] at hfull; cases hfull
  | made _ _ _ _ hs => rw [(hticks.registered id).mpr h₀] at hs; cases hs

end History

/-! ## Whole histories -/

/-- One call of a client. `validate` comes with the orders its maps happen to iterate in. -/
inductive Call where
  | get (T : RustType)
  | tryGet (T : RustType)
  | getTrait (U : RustType)
  | tryGetTrait (U : RustType)
  | validate (roots slots : List TypeId)

namespace Call

def Result : Call → Type
  | .get T => Arc T
  | .tryGet T => Except ContainerError (Arc T)
  | .getTrait U => Arc U
  | .tryGetTrait U => Except ContainerError (Arc U)
  | .validate _ _ => Except (List ContainerError) Unit

def prog (c : Container) : (call : Call) → Prog call.Result
  | .get T => Container.get T
  | .tryGet T => Container.tryGet T
  | .getTrait U => Container.getTrait U
  | .tryGetTrait U => Container.tryGetTrait U
  | .validate roots slots => c.validate roots slots

/-- The key a call resolved and what its slot holds, by what the call returned: `get_trait`
returns a clone of the `Arc` inside. -/
def instance? : (call : Call) → call.Result → Option (TypeId × AnyArc)
  | .get T, p => some (TypeId.of T, ⟨T, p⟩)
  | .tryGet T, .ok p => some (TypeId.of T, ⟨T, p⟩)
  | .getTrait U, p => some (TraitObject.typeId U, ⟨.arc U, Arc.new p⟩)
  | .tryGetTrait U, .ok p => some (TraitObject.typeId U, ⟨.arc U, Arc.new p⟩)
  | .tryGet _, .error _ | .tryGetTrait _, .error _ | .validate _ _, _ => none

end Call

structure Answer where
  call : Call
  outcome : Outcome call.Result

def Answer.instance? (answer : Answer) : Option (TypeId × AnyArc) :=
  match answer.outcome with
  | .returned r => answer.call.instance? r
  | .panicked => none

/-- One call after another. A panic ends a call and not the client; a call that hangs is the
last one. -/
def World.runCalls : World → List Call → World × List Answer
  | w, [] => (w, [])
  | w, call :: calls =>
    match w.run (call.prog w.container) with
    | (w', .error _) => (w', [])
    | (w', .ok outcome) =>
      let (w'', answers) := runCalls w' calls
      (w'', ⟨call, outcome⟩ :: answers)

namespace World

theorem getOrInit_resolved {depth : Nat} {w w' : World} {id : TypeId} {a : AnyArc}
    (hcall : getOrInit depth w id = (w', .ok (.ready a))) : a ∈ w'.resolutions id := by
  cases depth with
  | zero => cases hcall
  | succ depth =>
    rw [getOrInit] at hcall
    rcases initWith_cases (getOrInit depth) w id with
      ⟨-, h⟩ | ⟨b, -, h⟩ | ⟨-, h⟩ | ⟨-, -, h⟩ | ⟨f, w₁, -, -, ⟨e, -, h⟩ | ⟨b, -, h⟩ | ⟨-, h⟩⟩
    all_goals rw [h] at hcall; cases hcall
    · rw [resolutions_hit, if_pos rfl]
      exact List.mem_cons_self
    · rw [resolutions_finish, if_pos rfl]
      exact List.mem_cons_self

variable {depth : Nat} {w w' : World}

/-- What a lookup returns, it resolved. -/
theorem exec_access {α : Type} {T : RustType} {found : Arc T → α} {id : TypeId} {name : String}
    {x : α} (h : (Container.access id T found name).exec (getOrInit depth) w =
      (w', .ok (.returned (.ok x)))) :
    ∃ p, x = found p ∧ ⟨T, p⟩ ∈ w'.resolutions id := by
  rw [Container.access, Prog.exec] at h
  rcases hcall : getOrInit depth w id with ⟨w₁, e | _ | _ | a⟩
  · rw [hcall] at h; cases h
  · rw [hcall] at h; cases h
  · rw [hcall] at h; cases h
  · simp only [hcall] at h
    cases hd : a.downcast T with
    | none => simp only [hd] at h; cases h
    | some p =>
      simp only [hd] at h
      cases h
      exact ⟨p, rfl, AnyArc.eq_of_downcast hd ▸ getOrInit_resolved hcall⟩

theorem exec_tryGet {T : RustType} {p : Arc T}
    (h : (Container.tryGet T).exec (getOrInit depth) w = (w', .ok (.returned (.ok p)))) :
    ⟨T, p⟩ ∈ w'.resolutions (TypeId.of T) := by
  rw [Container.tryGet_eq] at h
  obtain ⟨q, rfl, hq⟩ := exec_access h
  exact hq

theorem exec_tryGetTrait {U : RustType} {p : Arc U}
    (h : (Container.tryGetTrait U).exec (getOrInit depth) w = (w', .ok (.returned (.ok p)))) :
    ⟨.arc U, Arc.new p⟩ ∈ w'.resolutions (TraitObject.typeId U) := by
  rw [Container.tryGetTrait_eq] at h
  obtain ⟨q, rfl, hq⟩ := exec_access h
  exact hq

/-- A panicking accessor returns what the fallible one would. -/
theorem exec_orPanic {α : Type} {p : Prog (Except ContainerError α)} {a : α}
    (h : (p >>= Container.orPanic).exec (getOrInit depth) w = (w', .ok (.returned a))) :
    p.exec (getOrInit depth) w = (w', .ok (.returned (.ok a))) := by
  rcases Prog.exec_bind_ok h with ⟨w₁, result, hp, hresult⟩ | ⟨-, hpanicked⟩
  · cases result with
    | ok b =>
      cases hresult
      exact hp
    | error e => cases hresult
  · cases hpanicked

/-- **What a call returns, it resolved.** -/
theorem run_instance {call : Call} {c : Container} {r : call.Result} {id : TypeId} {a : AnyArc}
    (h : w.run (call.prog c) = (w', .ok (.returned r))) (ha : call.instance? r = some (id, a)) :
    a ∈ w'.resolutions id := by
  cases call with
  | get T => cases ha; exact exec_tryGet (exec_orPanic h)
  | tryGet T =>
    cases r with
    | ok p => cases ha; exact exec_tryGet h
    | error e => cases ha
  | getTrait U => cases ha; exact exec_tryGetTrait (exec_orPanic h)
  | tryGetTrait U =>
    cases r with
    | ok p => cases ha; exact exec_tryGetTrait h
    | error e => cases ha
  | validate roots slots => cases ha

theorem runCalls_ticks (w : World) (calls : List Call) : Ticks w (w.runCalls calls).1 := by
  induction calls generalizing w with
  | nil => exact .refl
  | cons call calls ih =>
    have hrun := (run_runs w (call.prog w.container)).ticks
    rw [runCalls]
    rcases h : w.run (call.prog w.container) with ⟨w', e | o⟩
    · rw [h] at hrun; exact hrun
    · rw [h] at hrun; exact hrun.trans (ih w')

theorem runCalls_answers {calls : List Call} {w : World} {answer : Answer}
    (h : answer ∈ (w.runCalls calls).2) {id : TypeId} {a : AnyArc}
    (ha : answer.instance? = some (id, a)) : a ∈ (w.runCalls calls).1.resolutions id := by
  induction calls generalizing w with
  | nil => exact absurd h (by simp [runCalls])
  | cons call calls ih =>
    rw [runCalls] at h ⊢
    rcases hrun : w.run (call.prog w.container) with ⟨w', e | o⟩
    · rw [hrun] at h; exact absurd h (by simp)
    · rw [hrun] at h
      simp only [List.mem_cons] at h ⊢
      rcases h with rfl | h
      · cases o with
        | panicked => cases ha
        | returned r =>
          have := mem_resolutions.mp (run_instance hrun ha)
          exact mem_resolutions.mpr ((runCalls_ticks w' calls).trace.subset this)
      · exact ih h

end World

def lastRegistration (setups : List Setup) (id : TypeId) : Option Registration :=
  (setups.flatMap Setup.registrations).reverse.find? (·.key = id)

theorem Container.built_factory (setups : List Setup) (id : TypeId) :
    (Container.built setups).factories.get id =
      (lastRegistration setups id).map Registration.wrappedFactory := by
  rw [built_eq, foldl_apply_eq, HashMap.get_insertAll, new, HashMap.get_empty, Option.or_none]
  rfl

theorem Container.built_slot (setups : List Setup) (id : TypeId) :
    (Container.built setups).singletons.get id =
      (lastRegistration setups id).map Registration.slot := by
  rw [built_eq, foldl_apply_eq, HashMap.get_insertAll, new, HashMap.get_empty, Option.or_none]
  rfl

/-- **One instance per component, as seen by everybody.** After any registrations and any calls:
a factory has returned at most once per key, all resolutions of a key — direct ones and those
made inside factories — gave the same instance, what a call answered is among them, and the
instance is the one handed to the last `register_instance` (whose factory was never started) or
the one built by the factory of the last registration. -/
theorem one_instance (setups : List Setup) (calls : List Call) (id : TypeId) :
    ∃ w answers, (World.start (Container.built setups)).runCalls calls = (w, answers) ∧
      (w.builds id).length ≤ 1 ∧
      (∀ a ∈ w.resolutions id, ∀ b ∈ w.resolutions id, a = b) ∧
      (∀ answer ∈ answers, ∀ a, answer.instance? = some (id, a) → a ∈ w.resolutions id) ∧
      (∀ T p, lastRegistration setups id = some (.registerInstance T p) →
        (∀ a ∈ w.resolutions id, a = ⟨T, p⟩) ∧ .entered id ∉ w.trace) ∧
      (∀ r, lastRegistration setups id = some r → (∀ T p, r ≠ .registerInstance T p) →
        ∀ a ∈ w.resolutions id, w.builds id = [(r.wrappedFactory, a)]) ∧
      (lastRegistration setups id = none → w.resolutions id = []) := by
  have hticks := World.runCalls_ticks (World.start (Container.built setups)) calls
  have hanswers : ∀ answer ∈ ((World.start (Container.built setups)).runCalls calls).2, ∀ a,
      answer.instance? = some (id, a) →
        a ∈ ((World.start (Container.built setups)).runCalls calls).1.resolutions id :=
    fun _ h _ ha => World.runCalls_answers h ha
  rcases hrun : (World.start (Container.built setups)).runCalls calls with ⟨w, answers⟩
  rw [hrun] at hticks hanswers
  have hslot₀ : (World.start (Container.built setups)).slot id =
      (lastRegistration setups id).map Registration.slot := Container.built_slot setups id
  -- what the history of the slot is follows from what was in it at first
  have history := History.ticks hticks id
  refine ⟨w, answers, rfl, history.builds_le, history.agree, hanswers, ?_, ?_, ?_⟩
  · intro T p hlast
    exact history.of_full hticks (by rw [hslot₀, hlast]; rfl)
  · intro r hlast hne a ha
    have hempty : (World.start (Container.built setups)).slot id = some .empty := by
      rw [hslot₀, hlast]
      cases r with
      | registerInstance T p => exact absurd rfl (hne T p)
      | _ => rfl
    obtain ⟨f, hf, hbuilds⟩ := history.of_empty hempty a ha
    have hf : (Container.built setups).factories.get id = some f := hf
    rw [Container.built_factory, hlast] at hf
    rw [hbuilds, ← Option.some.inj hf]
  · intro hlast
    exact history.of_none hticks (by rw [hslot₀, hlast]; rfl)

end Di
end StanoPlatform
