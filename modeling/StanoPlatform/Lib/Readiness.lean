import Mathlib.Data.List.Induction

/-!
# `Lib/Readiness.lean` — services that must be asked before they are called

The protocol of a service with `poll_ready` and `call`, over the history of its instances: a call
is in order on an instance that has said it is ready since it was made or last called. A clone
starts unready, whatever its original had said.
-/

set_option autoImplicit false

namespace StanoPlatform
namespace Lib

/-- What is done with the instances of a service. -/
inductive Use where
  | cloned (source inst : Nat)
  | polled (inst : Nat) (ready : Bool)
  | called (inst : Nat)
  deriving DecidableEq, Repr

/-- Whether an instance is ready after a use, by whether it was before. -/
def Use.after (inst : Nat) (ready : Bool) : Use → Bool
  | .cloned _ i => if i = inst then false else ready
  | .polled i answer => if i = inst then answer || ready else ready
  | .called i => if i = inst then false else ready

def isReady (uses : List Use) (inst : Nat) : Bool := uses.foldl (Use.after inst) false

/-- No instance was called that was not ready. -/
def Obeys (uses : List Use) : Prop :=
  ∀ before inst, before ++ [.called inst] <+: uses → isReady before inst = true

theorem isReady_snoc (uses : List Use) (use : Use) (inst : Nat) :
    isReady (uses ++ [use]) inst = use.after inst (isReady uses inst) := by
  rw [isReady, List.foldl_append]
  rfl

/-- Nothing gets ready without saying so. -/
theorem polled_of_isReady {uses : List Use} {inst : Nat} (h : isReady uses inst = true) :
    .polled inst true ∈ uses := by
  induction uses using List.reverseRecOn with
  | nil => cases h
  | append_singleton uses use ih =>
    rw [isReady_snoc] at h
    have hearlier : isReady uses inst = true → .polled inst true ∈ uses ++ [use] :=
      fun hready => List.mem_append_left _ (ih hready)
    cases use with
    | cloned source i | called i =>
      by_cases hi : i = inst <;> simp [Use.after, hi] at h
      exact hearlier h
    | polled i answer =>
      by_cases hi : i = inst
      · subst hi
        cases answer with
        | true => simp
        | false => exact hearlier (by simpa [Use.after] using h)
      · exact hearlier (by simpa [Use.after, hi] using h)

/-- Where nobody asks, the protocol is kept by not calling. -/
theorem obeys_iff_of_unpolled {uses : List Use} (h : ∀ inst, .polled inst true ∉ uses) :
    Obeys uses ↔ ∀ inst, .called inst ∉ uses := by
  constructor
  · intro hobeys inst hmem
    obtain ⟨before, after, rfl⟩ := List.append_of_mem hmem
    have hready := hobeys before inst ⟨after, by simp⟩
    exact h inst (List.mem_append_left _ (polled_of_isReady hready))
  · intro hcalled before inst hpre
    exact absurd (hpre.subset (by simp)) (hcalled inst)

end Lib
end StanoPlatform
