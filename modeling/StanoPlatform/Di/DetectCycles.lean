import Mathlib.Algebra.BigOperators.Group.Finset.Basic
import Mathlib.Algebra.Order.BigOperators.Group.Finset
import Mathlib.Algebra.Ring.Nat
import StanoPlatform.Lib.HashMap
import StanoPlatform.Lib.Loop

/-!
# `Di/DetectCycles.lean` — the search behind `Container::detect_cycles`

The iterative three-colour depth-first search, as the code runs it: one colour map shared by all
roots, and per root a stack of `(type, next child)` frames with a separately maintained `path`.
Nothing in it depends on what a key is, so the search is over any key type; `Di/Container.lean`
runs it on `TypeId`s and turns each listed cycle into a `CyclicDependency` of names.

`Search.stack` is the `Vec` read from its end: the head is `stack.last_mut()`. `Search.path` is
the `Vec` as it stands, root first, because a report is a suffix of it.

The search keeps its own ledger of what is left to do (`Search.work`): the children still ahead
of every frame, and the whole of every type not yet met. Each iteration spends some of it, so
the fuel the loop is given is never what ends it (`stack_whileLoop`).

From `Container::detect_cycles` in `stano-di/src/container.rs`, whose inner function and loop are
`Search.visit` and `Search.step`. An index that is out of bounds would panic in the source. There
is none: the slice of the path is taken at a position that was found in it.
-/

set_option autoImplicit false

namespace StanoPlatform
namespace Di

open Lib

inductive Color where
  | white
  | gray
  | black
  deriving DecidableEq, Repr

variable {K : Type} [DecidableEq K]

/-- `self.dependencies.get(&node).map(|v| v.as_slice()).unwrap_or(&[])`. -/
def depsOf (dependencies : HashMap K (List K)) (node : K) : List K :=
  (dependencies.get node).getD []

/-- `colors.get(&k).copied().unwrap_or(Color::White)`. -/
def colorOf (colors : HashMap K Color) (k : K) : Color := (colors.get k).getD .white

theorem colorOf_insert (colors : HashMap K Color) (k k' : K) (c : Color) :
    colorOf (colors.insert k c) k' = if k' = k then c else colorOf colors k' := by
  unfold colorOf
  rw [HashMap.get_insert]
  split <;> rfl

/-- The variables of `detect_cycles`. `cycles` is `errors` before the ids become names. -/
structure Search (K : Type) where
  colors : HashMap K Color
  stack : List (K × Nat)
  path : List K
  cycles : List (List K)

namespace Search

/-- One iteration of the `while let`; `none` when `stack.last_mut()` is. -/
def step (deps : K → List K) (s : Search K) : Option (Search K) :=
  match s.stack with
  | [] => none
  | (node, childIdx) :: below =>
    if h : childIdx < (deps node).length then
      let dep := (deps node)[childIdx]
      -- `*child_idx += 1` happens before the colour of the child is looked at
      let stack := (node, childIdx + 1) :: below
      match colorOf s.colors dep with
      | .gray =>
        let start := (s.path.idxOf? dep).getD 0
        some { s with stack, cycles := s.cycles ++ [s.path.drop start] }
      | .white =>
        some { s with
          colors := s.colors.insert dep .gray
          path := s.path ++ [dep]
          stack := (dep, 0) :: stack }
      | .black => some { s with stack }
    else
      some { s with
        colors := s.colors.insert node .black
        stack := below
        path := s.path.dropLast }

/-- The children still ahead of each frame, and the frame itself. -/
def ahead (deps : K → List K) (stack : List (K × Nat)) : Nat :=
  (stack.map fun f => (deps f.1).length - f.2 + 1).sum

def unmet (deps : K → List K) (ids : Finset K) (colors : HashMap K Color) : Nat :=
  ∑ k ∈ ids with colorOf colors k = .white, ((deps k).length + 1)

def work (deps : K → List K) (ids : Finset K) (s : Search K) : Nat :=
  ahead deps s.stack + unmet deps ids s.colors

/-- `vec![(root, 0)]`, `vec![root]`, and the root turns gray. -/
def start (s : Search K) (root : K) : Search K :=
  { s with stack := [(root, 0)], path := [root], colors := s.colors.insert root .gray }

/-- One round of the `for`. Indexing `colors[&root]` would panic on a missing key: `none`. -/
def visit (deps : K → List K) (ids : Finset K) (s : Search K) (root : K) :
    Option (Search K) :=
  match s.colors.get root with
  | none => none
  | some .white => some (whileLoop (work deps ids) (step deps) (s.start root))
  | some _ => some s

def init (keys : List K) : Search K :=
  { colors := keys.foldl (fun colors id => colors.insert id .white) ∅
    stack := [], path := [], cycles := [] }

end Search

/-- The ids the dependency lists mention: what the search can meet besides its roots. -/
def mentioned (dependencies : HashMap K (List K)) : Finset K :=
  dependencies.keys.biUnion fun k => (depsOf dependencies k).toFinset

/-- `detect_cycles`, over the order in which `factories.keys()` yields the roots, up to the
point where a cycle of ids becomes an error of names. -/
def findCycles (dependencies : HashMap K (List K)) (keys : List K) : Option (List (List K)) :=
  (keys.foldlM (Search.visit (depsOf dependencies) (mentioned dependencies))
    (Search.init keys)).map (·.cycles)

theorem mem_mentioned {dependencies : HashMap K (List K)} {a b : K}
    (h : b ∈ depsOf dependencies a) : b ∈ mentioned dependencies := by
  refine Finset.mem_biUnion.mpr ⟨a, ?_, List.mem_toFinset.mpr h⟩
  rw [Finmap.mem_keys]
  cases hg : HashMap.get dependencies a with
  | none => rw [depsOf, hg] at h; exact absurd h (by simp)
  | some l => exact HashMap.mem_of_get hg

namespace Search

/-- **What one iteration can do**: finish the top frame, report a back edge, descend into a type
met for the first time, or step over a finished one. -/
theorem step_cases {deps : K → List K} {s s' : Search K} (h : step deps s = some s') :
    ∃ node i below, s.stack = (node, i) :: below ∧
      (((deps node).length ≤ i ∧
          s' = { s with colors := s.colors.insert node .black
                        stack := below, path := s.path.dropLast }) ∨
        ∃ dep, (deps node)[i]? = some dep ∧
          ((colorOf s.colors dep = .gray ∧
              s' = { s with stack := (node, i + 1) :: below
                            cycles := s.cycles ++
                              [s.path.drop ((s.path.idxOf? dep).getD 0)] }) ∨
            (colorOf s.colors dep = .white ∧
              s' = { s with colors := s.colors.insert dep .gray, path := s.path ++ [dep]
                            stack := (dep, 0) :: (node, i + 1) :: below }) ∨
            (colorOf s.colors dep = .black ∧
              s' = { s with stack := (node, i + 1) :: below }))) := by
  unfold step at h
  cases hst : s.stack with
  | nil => rw [hst] at h; exact absurd h (by simp)
  | cons f below =>
    obtain ⟨node, i⟩ := f
    rw [hst] at h
    refine ⟨node, i, below, rfl, ?_⟩
    by_cases hi : i < (deps node).length
    · simp only [hi, dite_true] at h
      refine Or.inr ⟨(deps node)[i], List.getElem?_eq_getElem hi, ?_⟩
      cases hc : colorOf s.colors (deps node)[i] with
      | gray => rw [hc] at h; exact Or.inl ⟨rfl, (Option.some.inj h).symm⟩
      | white => rw [hc] at h; exact Or.inr (Or.inl ⟨rfl, (Option.some.inj h).symm⟩)
      | black => rw [hc] at h; exact Or.inr (Or.inr ⟨rfl, (Option.some.inj h).symm⟩)
    · simp only [hi, dite_false] at h
      exact Or.inl ⟨Nat.le_of_not_lt hi, (Option.some.inj h).symm⟩

/-! ## The loop ends -/

omit [DecidableEq K] in
theorem ahead_cons (deps : K → List K) (node : K) (i : Nat) (below : List (K × Nat)) :
    ahead deps ((node, i) :: below) = (deps node).length - i + 1 + ahead deps below := rfl

/-- A finished type was not white, or is no longer: nothing becomes unmet. -/
theorem unmet_insert_black (deps : K → List K) (ids : Finset K) (colors : HashMap K Color)
    (node : K) : unmet deps ids (colors.insert node .black) ≤ unmet deps ids colors := by
  refine Finset.sum_le_sum_of_subset ?_
  intro k hk
  rw [Finset.mem_filter, colorOf_insert] at hk
  rw [Finset.mem_filter]
  by_cases hkn : k = node
  · rw [if_pos hkn] at hk; exact absurd hk.2 (by simp)
  · rw [if_neg hkn] at hk; exact hk

/-- A white type that turns gray takes its whole worth with it. -/
theorem unmet_insert_gray (deps : K → List K) {ids : Finset K} {colors : HashMap K Color}
    {dep : K} (hd : dep ∈ ids) (hw : colorOf colors dep = .white) :
    (deps dep).length + 1 + unmet deps ids (colors.insert dep .gray) =
      unmet deps ids colors := by
  have hmem : dep ∈ ids.filter fun k => colorOf colors k = .white :=
    Finset.mem_filter.mpr ⟨hd, hw⟩
  have herase : (ids.filter fun k => colorOf (colors.insert dep .gray) k = .white) =
      (ids.filter fun k => colorOf colors k = .white).erase dep := by
    ext k
    rw [Finset.mem_erase, Finset.mem_filter, Finset.mem_filter, colorOf_insert]
    by_cases hk : k = dep
    · simp [hk]
    · simp [hk]
  unfold unmet
  rw [herase]
  exact Finset.add_sum_erase _ (fun k => (deps k).length + 1) hmem

/-- Every iteration spends some of the work that is left. -/
theorem work_step {deps : K → List K} {ids : Finset K} (hids : ∀ a b, b ∈ deps a → b ∈ ids)
    {s s' : Search K} (h : step deps s = some s') : work deps ids s' < work deps ids s := by
  obtain ⟨node, i, below, hst, hcase⟩ := step_cases h
  unfold work
  rw [hst, ahead_cons]
  rcases hcase with ⟨hi, rfl⟩ | ⟨dep, hdep, hcase⟩
  · have := unmet_insert_black deps ids s.colors node
    show ahead deps below + unmet deps ids (s.colors.insert node .black) < _
    omega
  · obtain ⟨hi, -⟩ := List.getElem?_eq_some_iff.mp hdep
    rcases hcase with ⟨-, rfl⟩ | ⟨hw, rfl⟩ | ⟨-, rfl⟩
    · simp only [ahead_cons]
      omega
    · have := unmet_insert_gray deps (hids node dep (List.mem_of_getElem? hdep)) hw
      simp only [ahead_cons]
      omega
    · simp only [ahead_cons]
      omega

theorem stack_of_step_none {deps : K → List K} {s : Search K} (h : step deps s = none) :
    s.stack = [] := by
  unfold step at h
  cases hst : s.stack with
  | nil => rfl
  | cons f below =>
    obtain ⟨node, i⟩ := f
    rw [hst] at h
    by_cases hi : i < (deps node).length
    · simp only [hi, dite_true] at h
      split at h <;> exact absurd h (by simp)
    · simp only [hi, dite_false] at h
      exact absurd h (by simp)

/-- The loop ends because the stack is empty, never because the fuel is. -/
theorem stack_whileLoop {deps : K → List K} {ids : Finset K}
    (hids : ∀ a b, b ∈ deps a → b ∈ ids) (s : Search K) :
    (whileLoop (work deps ids) (step deps) s).stack = [] :=
  stack_of_step_none (whileLoop_exit (fun _ _ h => work_step hids h) s)

end Search

end Di
end StanoPlatform
