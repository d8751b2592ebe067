import StanoPlatform.Di.Threads
import StanoPlatform.Di.Validate

/-!
# `Di/Warm.lean` — what is left to do after `validate`

When `validate` says `Ok`, every slot is full: no factory is left to run, so there is nothing to
wait for and nothing that could panic. Threads that share such a container do not see each other at
all: each is, after its own steps, where it would be had it been alone (`validated_serves`).

Nothing is asked of the factories: it is enough that this one run of `validate` went well.

This is the state in which `run` gets its container: `build_context` validates before anything
serves. `OnceLock::get` on a full lock does not block, which is what `Thread.step` has it do.
-/

set_option autoImplicit false

namespace StanoPlatform
namespace Di

open Lib Relation Container

/-! ## What `validate` leaves behind -/

namespace World

/-- Every registered component has its instance. -/
def Warm (w : World) : Prop := ∀ id ∈ w.container.factories, ∃ a, w.slot id = some (.full a)

/-- What a lookup comes to that has nothing to run. -/
def answer (w : World) (id : TypeId) : Resolution :=
  match w.slot id with
  | some (.full a) => .ready a
  | some _ => .panicked
  | none => .unregistered

variable {c : Container} {w w' : World} {depth : Nat}

theorem exec_full {α : Type} {p : Prog α} {r : Except Stop (Outcome α)}
    (h : p.exec (getOrInit depth) w = (w', r)) {id : TypeId} {a : AnyArc}
    (hfull : w.slot id = some (.full a)) : w'.slot id = some (.full a) := by
  have hruns := Prog.exec_rel Runs.refl Runs.trans (getOrInit_runs depth) p w
  rw [h] at hruns
  exact hruns.ticks.full hfull

theorem getOrInit_unregistered {id : TypeId}
    (hcall : getOrInit depth w id = (w', .ok .unregistered)) : w.slot id = none := by
  cases depth with
  | zero => cases hcall
  | succ depth =>
    rw [getOrInit] at hcall
    rcases initWith_cases (getOrInit depth) w id with
      ⟨hs, -⟩ | ⟨a, -, h⟩ | ⟨-, h⟩ | ⟨-, -, h⟩ | ⟨f, w₁, -, -, ⟨e, -, h⟩ | ⟨a, -, h⟩ | ⟨-, h⟩⟩
    · exact hs
    all_goals rw [h] at hcall; cases hcall

/-- Errors are only ever added, and a slot that adds none is full. -/
theorem exec_validateLoop_full : ∀ {ids : List TypeId} {errors errors' : List ContainerError}
    {w w' : World}, (c.validateLoop ids errors).exec (getOrInit depth) w =
      (w', .ok (.returned errors')) →
    errors <+: errors' ∧ (errors' = errors → ∀ id ∈ ids, id ∈ c.factories → w.slot id ≠ none →
      ∃ a, w'.slot id = some (.full a)) := by
  intro ids
  induction ids with
  | nil =>
    intro errors errors' w w' h
    cases h
    exact ⟨List.prefix_rfl, fun _ _ hid => absurd hid List.not_mem_nil⟩
  | cons id ids ih =>
    intro errors errors' w w' h
    -- the head is full in the world that the rest starts from
    have hgood : ∀ {w₁ : World}, (∀ k, w₁.slot k = none ↔ w.slot k = none) →
        (id ∈ c.factories → w.slot id ≠ none → ∃ a, w₁.slot id = some (.full a)) →
        (c.validateLoop ids errors).exec (getOrInit depth) w₁ = (w', .ok (.returned errors')) →
        errors <+: errors' ∧ (errors' = errors → ∀ k ∈ id :: ids, k ∈ c.factories →
          w.slot k ≠ none → ∃ a, w'.slot k = some (.full a)) := by
      intro w₁ hregistered hfull hrest
      obtain ⟨hgrown, hids⟩ := ih hrest
      refine ⟨hgrown, fun herrors k hk hfactory hslot => ?_⟩
      rcases List.mem_cons.mp hk with rfl | hk
      · obtain ⟨a, ha⟩ := hfull hfactory hslot
        exact ⟨a, exec_full hrest ha⟩
      · exact hids herrors k hk hfactory fun hnone => hslot ((hregistered k).mp hnone)
    rw [validateLoop, Prog.exec] at h
    cases hset : w.isSet id with
    | true =>
      rw [hset] at h
      exact hgood (fun _ => Iff.rfl) (fun _ _ => isSet_iff.mp hset) h
    | false =>
      rw [hset] at h
      cases hf : c.factories.get id with
      | none =>
        rw [hf] at h
        exact hgood (fun _ => Iff.rfl)
          (fun hid => absurd hid (HashMap.get_eq_none_iff.mp hf)) h
      | some f =>
        rw [hf] at h
        obtain ⟨w₁, r, hcall, hrest⟩ := Prog.exec_resolve_ok h
        have hruns := getOrInit_runs depth w id
        rw [hcall] at hruns
        cases r with
        | ready a =>
          exact hgood hruns.ticks.registered (fun _ _ => ⟨a, getOrInit_ready hcall⟩) hrest
        | unregistered =>
          exact hgood hruns.ticks.registered
            (fun _ hslot => absurd (getOrInit_unregistered hcall) hslot) hrest
        | panicked =>
          obtain ⟨hgrown, -⟩ := ih hrest
          refine ⟨(List.prefix_append _ _).trans hgrown, fun herrors => ?_⟩
          have hlength := hgrown.length_le
          rw [herrors, List.length_append, List.length_singleton] at hlength
          omega

/-- **`Ok` means warm.** -/
theorem warm_of_validate (hwf : w.container.Wf) {roots : List TypeId}
    (slots : HashMap.Order w.container.singletons)
    (hvalid : w.run (w.container.validate roots slots.1) = (w', .ok (.returned (.ok ())))) :
    w'.Warm ∧ Ticks w w' := by
  have hticks : Ticks w w' := (run_settles hvalid).ticks
  refine ⟨fun id hid => ?_, hticks⟩
  rw [hticks.rest.1] at hid
  rw [validate] at hvalid
  -- `Ok` means that there was no cycle and that the loop has reported nothing
  cases hcycles : w.container.detectCycles roots with
  | none => rw [hcycles] at hvalid; cases hvalid
  | some errors =>
    rw [hcycles] at hvalid
    simp only at hvalid
    split at hvalid
    · rename_i hempty
      rw [List.isEmpty_iff.mp hempty, run] at hvalid
      rcases Prog.exec_bind_ok hvalid with ⟨w₁, errors', hloop, hverdict⟩ | ⟨-, hpanicked⟩
      · cases herrors : verdict errors' with
        | error es => rw [herrors] at hverdict; cases hverdict
        | ok u =>
          rw [herrors] at hverdict
          cases hverdict
          have hslot : w.slot id ≠ none := fun hnone =>
            HashMap.get_eq_none_iff.mp hnone ((hwf.singletons id).mpr hid)
          exact (exec_validateLoop_full hloop).2 (verdict_eq_ok.mp herrors) id
            ((slots.2.2 id).mpr ((hwf.singletons id).mpr hid)) hid hslot
      · cases hpanicked
    · cases hvalid

end World

/-! ## Threads in a warm container -/

/-- What is left of a program after its next step, when lookups are answered with `answer`. -/
def Prog.next {α : Type} (answer : TypeId → Resolution) : Prog α → Prog α
  | .ret a => .ret a
  | .panic => .panic
  | .peek id k => k (answer id).isReady
  | .resolve id k => k (answer id)

namespace World

variable {w w' : World}

/-- What happens to a warm world: somebody has looked something up. -/
structure Reads (w w' : World) : Prop where
  container : w'.container = w.container
  trace : ∃ reads, w'.trace = reads ++ w.trace ∧
    ∀ event ∈ reads, ∃ id a, event = .resolved id a ∧ w.slot id = some (.full a)

theorem Reads.refl (w : World) : Reads w w := ⟨rfl, [], rfl, nofun⟩

theorem Reads.hit (h : Reads w w') {id : TypeId} {a : AnyArc}
    (hs : w.slot id = some (.full a)) : Reads w (w'.hit id a) := by
  obtain ⟨reads, htrace, hreads⟩ := h.trace
  refine ⟨h.container, .resolved id a :: reads, congrArg _ htrace, ?_⟩
  rintro event (_ | ⟨_, hevent⟩)
  · exact ⟨id, a, rfl, hs⟩
  · exact hreads event hevent

theorem Reads.slot (h : Reads w w') (id : TypeId) : w'.slot id = w.slot id := by
  rw [World.slot, h.container, World.slot]

/-- A slot of a warm world is full, or not there. -/
theorem Warm.slot (hwarm : w.Warm) (hwf : w.container.Wf) (id : TypeId) :
    (∃ a, w.slot id = some (.full a) ∧ w.answer id = .ready a) ∨
      w.slot id = none ∧ w.answer id = .unregistered := by
  by_cases hid : id ∈ w.container.factories
  · obtain ⟨a, ha⟩ := hwarm id hid
    exact .inl ⟨a, ha, by rw [answer, ha]⟩
  · have hnone : w.slot id = none :=
      HashMap.get_eq_none_iff.mpr fun hmem => hid ((hwf.singletons id).mp hmem)
    exact .inr ⟨hnone, by rw [answer, hnone]⟩

theorem Warm.isSet (hwarm : w.Warm) (hwf : w.container.Wf) (id : TypeId) :
    w.isSet id = (w.answer id).isReady := by
  rcases hwarm.slot hwf id with ⟨a, hs, hanswer⟩ | ⟨hs, hanswer⟩ <;>
    rw [World.isSet, hs, hanswer] <;> rfl

/-- **One step.** -/
theorem Warm.step (hwarm : w.Warm) (hwf : w.container.Wf) (hreads : Reads w w') {p : Prog Unit}
    {w'' : World} {t : Thread} (h : (Thread.client p).step w' = some (w'', t)) :
    Reads w w'' ∧ t = .client (p.next w.answer) := by
  cases p with
  | ret u => cases h
  | panic => cases h
  | peek id k =>
    cases h
    refine ⟨hreads, ?_⟩
    rw [Prog.next, ← hwarm.isSet hwf, World.isSet, hreads.slot, ← World.isSet]
  | resolve id k =>
    rw [Thread.step, call, hreads.slot] at h
    rcases hwarm.slot hwf id with ⟨a, hs, hanswer⟩ | ⟨hs, hanswer⟩
    · rw [hs] at h
      cases h
      exact ⟨hreads.hit hs, by rw [Prog.next, hanswer]; rfl⟩
    · rw [hs] at h
      cases h
      exact ⟨hreads, by rw [Prog.next, hanswer]; rfl⟩

/-- A field of a service, or a handler's component, is there. -/
theorem Warm.next_get (hwarm : w.Warm) (hwf : w.container.Wf) {dep : Dep}
    (hdep : dep.key ∈ w.container.factories) : ∃ a, w.slot dep.key = some (.full a) ∧
      ∀ {β : Type} (k : AnyArc → Prog β), (dep.get >>= k).next w.answer = k a := by
  obtain ⟨a, ha⟩ := hwarm dep.key hdep
  obtain ⟨found, hget, -, -, hfound⟩ := dep.get_eq
  refine ⟨a, ha, fun k => ?_⟩
  have hanswer : w.answer dep.key = .ready a := by rw [answer, ha]
  rw [hget, Prog.resolve_bind, Prog.next, hanswer, hfound a (hwf.filled _ _ ha)]
  rfl

end World

section

variable {ι : Type} [DecidableEq ι] {w : World} {programs : ι → Prog Unit} {m : Machine ι}

/-- **Every run.** -/
theorem World.Warm.steps (hwarm : w.Warm) (hwf : w.container.Wf)
    (hsteps : Machine.Steps ⟨w, fun i => .client (programs i)⟩ m) :
    World.Reads w m.world ∧
      ∀ i, ∃ n, m.threads i = .client ((Prog.next w.answer)^[n] (programs i)) := by
  induction hsteps with
  | refl => exact ⟨.refl w, fun i => ⟨0, rfl⟩⟩
  | tail _ hstep ih =>
    obtain ⟨hreads, hthreads⟩ := ih
    obtain @⟨w'', t, i, hthread⟩ := hstep
    obtain ⟨n, hn⟩ := hthreads i
    rw [hn] at hthread
    obtain ⟨hreads', rfl⟩ := hwarm.step hwf hreads hthread
    refine ⟨hreads', fun j => ?_⟩
    by_cases hj : j = i
    · subst hj
      exact ⟨n + 1, by simp only [Function.update_self, Function.iterate_succ_apply']⟩
    · simp only [Function.update_of_ne hj]
      exact hthreads j

/-- **Nothing is left to be done.** After a `validate` that returned `Ok`, whatever threads share
the container and however they interleave: nothing happens to it but that instances are read; every
thread is where it would be had it run alone; none of them ever waits; and whoever gets a
registered component has, in one step, the instance that is there. -/
theorem validated_serves {w₀ : World} (hwf : w₀.container.Wf) {roots : List TypeId}
    (slots : HashMap.Order w₀.container.singletons)
    (hvalid : w₀.run (w₀.container.validate roots slots.1) = (w, .ok (.returned (.ok ()))))
    (hsteps : Machine.Steps ⟨w, fun i => .client (programs i)⟩ m) :
    World.Reads w m.world ∧
    (∀ i, ∃ n, m.threads i = .client ((Prog.next w.answer)^[n] (programs i))) ∧
    (∀ i id, ¬ (m.threads i).Awaits m.world id) ∧
    ∀ dep : Dep, dep.key ∈ w₀.container.factories → ∃ a, w.slot dep.key = some (.full a) ∧
      ∀ k : AnyArc → Prog Unit, (dep.get >>= k).next w.answer = k a := by
  obtain ⟨hwarm, hticks⟩ := World.warm_of_validate hwf slots hvalid
  have hwf' : w.container.Wf := hticks.wf hwf
  obtain ⟨hreads, hthreads⟩ := hwarm.steps hwf' hsteps
  refine ⟨hreads, hthreads, ?_, ?_⟩
  · rintro i id ⟨-, hslot⟩
    rw [hreads.slot] at hslot
    rcases hwarm.slot hwf' id with ⟨a, hs, -⟩ | ⟨hs, -⟩ <;> rw [hs] at hslot <;> cases hslot
  · intro dep hdep
    rw [← hticks.rest.1] at hdep
    obtain ⟨a, ha, hget⟩ := hwarm.next_get hwf' hdep
    exact ⟨a, ha, fun k => hget k⟩

end

/-- Two threads want the branch, which is there already. -/
theorem validated_serves_pair : ∃ w, (World.start pair).run (pair.validate
      (registrationOrder [.registerAll [leaf.register, branch.register]]).1
      (slotOrder [.registerAll [leaf.register, branch.register]]).1) =
        (w, .ok (.returned (.ok ()))) ∧
    ∀ m : Machine Bool, Machine.Steps
      ⟨w, fun _ => .client (Call.sequence pair [.get (.named "Branch")])⟩ m →
      m.world.container = w.container := by
  obtain ⟨w, hvalid⟩ : ∃ w, (World.start pair).run (pair.validate
      (registrationOrder [.registerAll [leaf.register, branch.register]]).1
      (slotOrder [.registerAll [leaf.register, branch.register]]).1) =
        (w, .ok (.returned (.ok ()))) := ⟨_, rfl⟩
  have hwf : (World.start pair).container.Wf := wf_built _
  exact ⟨w, hvalid, fun m hsteps =>
    (validated_serves hwf (slotOrder [.registerAll [leaf.register, branch.register]]) hvalid
      hsteps).1.container⟩

end Di
end StanoPlatform
