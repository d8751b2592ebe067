import StanoPlatform.Lib.Readiness
import StanoPlatform.Lib.Run
import StanoPlatform.Axum.Layer

/-!
# `Axum/Readiness.lean` — the service an authorization layer makes of another

`AuthorizationLayer::layer` wraps an inner service in a `service_fn`. Its closure owns an instance
of the inner service and clones it for every request; the clone goes into the request's future,
which calls it if the request may pass. `service_fn` is always ready, and asks nobody.

The layer is a machine that its driver moves: handles of the outer service are cloned, polled and
called, futures are run, in any order. Both services' histories are on record.

From `impl Layer for AuthorizationLayer` in `stano-axum/src/security/layer.rs`. Of `tower` it takes
what the documentation of `Service` says: `poll_ready` must have said that it is ready before
`call`, and says so for one instance; a clone has to be asked again. The check is awaited in one
step.
-/

set_option autoImplicit false

namespace StanoPlatform
namespace Axum

open Lib Security

variable {M : Matchit} {E : Type}

structure Wrapped (E : Type) where
  -- the inner instances there have been
  instances : Nat
  -- the inner instance each handle's closure owns
  handles : List Nat
  -- the inner instance and the request each future has
  futures : List (Nat × Request E)
  finished : List Nat
  outer : List Use
  inner : List Use

/-- What the driver of the outer service does. -/
inductive Drive (E : Type) where
  | clone (handle : Nat)
  | pollReady (handle : Nat)
  | call (handle : Nat) (req : Request E)
  -- the poll of a future in which its check is done
  | run (future : Nat)

namespace Wrapped

/-- `layer(inner)` -/
def init : Wrapped E :=
  { instances := 1, handles := [0], futures := [], finished := [], outer := [], inner := [] }

/-- What the future does with its instance once the request is checked. -/
def afterCheck (inst : Nat) : Outcome → List Use
  | .allow => [.called inst]
  | .unauthorized => []
  | .forbidden => []

/-- `lib` is `jsonwebtoken` as it behaves when a future is run. -/
def step (lib : Nat → Jsonwebtoken E) (layer : AuthorizationLayer M E) (s : Wrapped E) :
    Drive E → Option (Wrapped E)
  | .clone handle => do
    let owned ← s.handles[handle]?
    some { s with
      instances := s.instances + 1
      handles := s.handles ++ [s.instances]
      outer := s.outer ++ [.cloned handle s.handles.length]
      inner := s.inner ++ [.cloned owned s.instances] }
  | .pollReady handle => do
    let _ ← s.handles[handle]?
    -- `ServiceFn::poll_ready` is `Poll::Ready(Ok(()))`
    some { s with outer := s.outer ++ [.polled handle true] }
  | .call handle req => do
    let owned ← s.handles[handle]?
    some { s with
      instances := s.instances + 1
      futures := s.futures ++ [(s.instances, req)]
      outer := s.outer ++ [.called handle]
      inner := s.inner ++ [.cloned owned s.instances] }
  | .run future => do
    let (inst, req) ← s.futures[future]?
    if future ∈ s.finished then none
    else
      some { s with
        finished := future :: s.finished
        inner := s.inner ++ afterCheck inst (layer.checkRequest (lib future) req).1 }

end Wrapped

def Drive.request : Drive E → Option (Request E)
  | .call _ req => some req
  | _ => none

/-- The requests of a run, by future. -/
def requests (drives : List (Drive E)) : List (Request E) := drives.filterMap Drive.request

namespace Wrapped

/-- A future is run whose request may pass. -/
def RunsAllowed (lib : Nat → Jsonwebtoken E) (layer : AuthorizationLayer M E)
    (drives : List (Drive E)) : Prop :=
  ∃ future req, (requests drives)[future]? = some req ∧ .run future ∈ drives ∧
    layer.Allowed (lib future) req

/-! ## The account -/

theorem requests_snoc (drives : List (Drive E)) (drive : Drive E) :
    requests (drives ++ [drive]) = requests drives ++ drive.request.toList := by
  rw [requests, List.filterMap_append, List.filterMap_cons, List.filterMap_nil]
  cases drive.request <;> rfl

/-- The inner service is never asked, and it is called by the futures of requests that may pass,
when they are run. -/
structure Accounts (lib : Nat → Jsonwebtoken E) (layer : AuthorizationLayer M E)
    (drives : List (Drive E)) (s : Wrapped E) : Prop where
  unpolled : ∀ inst, .polled inst true ∉ s.inner
  futures : s.futures.map (·.2) = requests drives
  started : ∀ future, .run future ∈ drives → future < s.futures.length
  called : (∃ inst, .called inst ∈ s.inner) ↔ RunsAllowed lib layer drives

variable {lib : Nat → Jsonwebtoken E} {layer : AuthorizationLayer M E}

/-- A step that runs no future is none of a future that was run before. -/
theorem runsAllowed_snoc {drives : List (Drive E)} {drive : Drive E} {length : Nat}
    (hlength : (requests drives).length = length)
    (hstarted : ∀ future, .run future ∈ drives → future < length)
    (hrun : ∀ future, drive ≠ .run future) :
    RunsAllowed lib layer (drives ++ [drive]) ↔ RunsAllowed lib layer drives := by
  refine exists₂_congr fun future req => ?_
  have hmem : (.run future ∈ drives ++ [drive]) ↔ .run future ∈ drives := by
    simp [Ne.symm (hrun future)]
  rw [hmem, requests_snoc]
  by_cases hfuture : .run future ∈ drives
  · rw [List.getElem?_append_left (hlength ▸ hstarted future hfuture)]
  · simp [hfuture]

theorem runsAllowed_run {drives : List (Drive E)} {future : Nat} {req : Request E}
    (hreq : (requests drives)[future]? = some req) :
    RunsAllowed lib layer (drives ++ [.run future]) ↔
      RunsAllowed lib layer drives ∨ layer.Allowed (lib future) req := by
  have hrequests : requests (drives ++ [.run future]) = requests drives := by
    simp [requests_snoc, Drive.request]
  constructor
  · rintro ⟨other, req', hreq', hrun, hallowed⟩
    rw [hrequests] at hreq'
    rcases List.mem_append.mp hrun with hrun | hrun
    · exact .inl ⟨other, req', hreq', hrun, hallowed⟩
    · cases List.mem_singleton.mp hrun
      cases hreq.symm.trans hreq'
      exact .inr hallowed
  · rintro (⟨other, req', hreq', hrun, hallowed⟩ | hallowed)
    · exact ⟨other, req', hrequests ▸ hreq', List.mem_append_left _ hrun, hallowed⟩
    · exact ⟨future, req, hrequests ▸ hreq, by simp, hallowed⟩

theorem mem_afterCheck {inst : Nat} {outcome : Outcome} {use : Use} :
    use ∈ afterCheck inst outcome ↔ use = .called inst ∧ outcome = .allow := by
  cases outcome <;> simp [afterCheck]

/-- **One step.** -/
theorem accounts_step {drives : List (Drive E)} {s s' : Wrapped E} {drive : Drive E}
    (h : Accounts lib layer drives s) (hstep : s.step lib layer drive = some s') :
    Accounts lib layer (drives ++ [drive]) s' := by
  have hlength : (requests drives).length = s.futures.length := by
    rw [← h.futures, List.length_map]
  cases drive with
  | clone handle =>
    obtain ⟨owned, -, ⟨⟩⟩ := Option.bind_eq_some_iff.mp hstep
    refine ⟨by simpa using h.unpolled, by simpa [requests_snoc, Drive.request] using h.futures,
      by simpa using h.started, ?_⟩
    rw [runsAllowed_snoc hlength h.started (by simp), ← h.called]
    simp
  | pollReady handle =>
    obtain ⟨owned, -, ⟨⟩⟩ := Option.bind_eq_some_iff.mp hstep
    refine ⟨h.unpolled, by simpa [requests_snoc, Drive.request] using h.futures,
      by simpa using h.started, ?_⟩
    rw [runsAllowed_snoc hlength h.started (by simp), ← h.called]
  | call handle req =>
    obtain ⟨owned, -, ⟨⟩⟩ := Option.bind_eq_some_iff.mp hstep
    refine ⟨by simpa using h.unpolled, ?_, ?_, ?_⟩
    · rw [requests_snoc, List.map_append, h.futures]
      rfl
    · intro future hmem
      have := h.started future (by simpa using hmem)
      simp only [List.length_append, List.length_singleton]
      omega
    · rw [runsAllowed_snoc hlength h.started (by simp), ← h.called]
      simp
  | run future =>
    obtain ⟨⟨inst, req⟩, hfuture, hstep⟩ := Option.bind_eq_some_iff.mp hstep
    simp only at hstep
    split at hstep
    case isTrue => cases hstep
    case isFalse =>
      cases hstep
      have hreq : (requests drives)[future]? = some req := by
        rw [← h.futures, List.getElem?_map, hfuture]
        rfl
      refine ⟨?_, by simpa [requests_snoc, Drive.request] using h.futures, ?_, ?_⟩
      · intro i
        simpa [mem_afterCheck] using h.unpolled i
      · intro other hmem
        rcases List.mem_append.mp hmem with hmem | hmem
        · exact h.started other hmem
        · cases List.mem_singleton.mp hmem
          exact (List.getElem?_eq_some_iff.mp hfuture).1
      -- the only step that calls an inner instance, the clone its future owns
      · rw [runsAllowed_run hreq, ← h.called, ← layer.checkRequest_eq_allow]
        simp only [List.mem_append, mem_afterCheck, Use.called.injEq, exists_or, exists_and_right,
          exists_eq, true_and]

/-- **Every run.** -/
theorem accounts_run {drives : List (Drive E)} {s : Wrapped E}
    (hrun : Lib.run (step lib layer) init drives = some s) : Accounts lib layer drives s := by
  refine run_invariant (Accounts lib layer) ⟨by simp [init], rfl, by simp, ?_⟩
    (fun _ _ _ _ => accounts_step) hrun
  simp [init, RunsAllowed]

end Wrapped

/-- **When the readiness protocol of the inner service is kept**: in every run, however it is
driven, iff no future is run whose request may pass. -/
theorem readiness_iff (lib : Nat → Jsonwebtoken E) (layer : AuthorizationLayer M E)
    (drives : List (Drive E)) (s : Wrapped E)
    (hrun : run (Wrapped.step lib layer) .init drives = some s) :
    Obeys s.inner ↔ ¬ Wrapped.RunsAllowed lib layer drives := by
  have h := Wrapped.accounts_run hrun
  rw [obeys_iff_of_unpolled h.unpolled, ← h.called, not_exists]

/-- One request, as a correct driver has it. -/
def oneRequest : List (Drive Unit) :=
  [.pollReady 0, .call 0 (.bare .get "/"), .run 0]

def terminalOnly (effect : Effect Unit) : AuthorizationLayer .unasked Unit :=
  buildLayer [] effect ⟨"", "", 3600⟩ none none

theorem readiness_iff_rejected : ∃ s, run (Wrapped.step (fun _ => .keyless Unit)
    (terminalOnly .authenticated)) .init oneRequest = some s ∧ Obeys s.inner := by
  obtain ⟨s, hs⟩ : ∃ s, run (Wrapped.step (fun _ => .keyless Unit)
    (terminalOnly .authenticated)) .init oneRequest = some s := ⟨_, rfl⟩
  refine ⟨s, hs, (readiness_iff _ (terminalOnly .authenticated) oneRequest s hs).mpr ?_⟩
  rintro ⟨_ | future, req, hreq, -, hallowed⟩
  · cases hreq
    rw [← AuthorizationLayer.checkRequest_eq_allow] at hallowed
    revert hallowed
    decide
  · cases hreq

/-- The driver polls before it calls; the clone that is called has never been polled. -/
theorem readiness_lost : ∃ s, run (Wrapped.step (fun _ => .keyless Unit)
    (terminalOnly .permitAll)) .init oneRequest = some s ∧ Obeys s.outer ∧ ¬ Obeys s.inner := by
  refine ⟨_, rfl, fun before inst hpre => ?_, fun hobeys => ?_⟩
  · obtain ⟨after, hsplit⟩ := hpre
    rcases before with _ | ⟨_, _ | ⟨_, _ | ⟨_, _⟩⟩⟩ <;> simp [Wrapped.init] at hsplit
    obtain ⟨rfl, rfl, -⟩ := hsplit
    rfl
  · exact absurd (hobeys [.cloned 0 1] 1 (List.prefix_refl _)) (by decide)

end Axum
end StanoPlatform
