import Mathlib.Data.List.Count
import StanoPlatform.Di.CycleSearch

/-!
# `Di/SearchRun.lean` — what the search does over a whole run

The search again, with a record of what it did: which ids it pushed and which positions of which
dependency list it looked at. The record is carried along and never read
(`Logged.visit_search`), so what is counted in it is counted of `detect_cycles`.

Everything the record says is a function of the state: a type was pushed unless it is white, and
its list was looked at up to `Search.seen` — not at all while it is white, up to the child index
of its frame while it is gray, to the end once it is black. One iteration moves one of these by
one and records exactly that (`Accounts.step`).

Counted are the iterations of the `while` loop, the pushes and the children looked at, over the run
of the outer loop from its first root to its last. Time and memory are not meant.
-/

set_option autoImplicit false

namespace StanoPlatform
namespace Di

open Lib

variable {K : Type} [DecidableEq K]

namespace Search

inductive Event (K : Type) where
  | push (id : K)
  -- `deps[child_idx]` of the node is read
  | examine (node : K) (childIdx : Nat)
  deriving DecidableEq

/-- What the iteration from here does. -/
def events (deps : K → List K) (s : Search K) : List (Event K) :=
  match s.stack with
  | [] => []
  | (node, childIdx) :: _ =>
    match (deps node)[childIdx]? with
    | none => []
    | some dep =>
      .examine node childIdx :: if colorOf s.colors dep = .white then [.push dep] else []

structure Logged (K : Type) where
  search : Search K
  log : List (Event K)

namespace Logged

def step (deps : K → List K) (l : Logged K) : Option (Logged K) :=
  (Search.step deps l.search).map fun s => ⟨s, l.log ++ events deps l.search⟩

def start (l : Logged K) (root : K) : Logged K := ⟨l.search.start root, l.log ++ [.push root]⟩

def visit (deps : K → List K) (ids : Finset K) (l : Logged K) (root : K) : Option (Logged K) :=
  match l.search.colors.get root with
  | none => none
  | some .white => some (whileLoop (fun l => work deps ids l.search) (step deps) (l.start root))
  | some _ => some l

def init (keys : List K) : Logged K := ⟨Search.init keys, []⟩

/-- `detect_cycles`, with the record. -/
def run (dependencies : HashMap K (List K)) (keys : List K) : Option (Logged K) :=
  keys.foldlM (visit (depsOf dependencies) (mentioned dependencies)) (init keys)

theorem step_search (deps : K → List K) (l : Logged K) :
    (l.step deps).map (·.search) = Search.step deps l.search := by
  rw [step, Option.map_map]
  exact Option.map_id'

/-- **The record changes nothing.** -/
theorem visit_search (deps : K → List K) (ids : Finset K) (l : Logged K) (root : K) :
    (l.visit deps ids root).map (·.search) = Search.visit deps ids l.search root := by
  unfold visit Search.visit
  cases l.search.colors.get root with
  | none => rfl
  | some c =>
    cases c with
    | white => exact congrArg some (whileLoop_map (f := Logged.search) (step_search deps) _)
    | gray => rfl
    | black => rfl

end Logged

/-! ## The record, read off the state -/

/-- How far the list of a type was looked at. -/
def seen (deps : K → List K) (s : Search K) (k : K) : Nat :=
  match colorOf s.colors k with
  | .white => 0
  | .gray => (s.stack.lookup k).getD 0
  | .black => (deps k).length

structure Accounts (deps : K → List K) (s : Search K) (log : List (Event K)) : Prop where
  bound : ∀ frame ∈ s.stack, frame.2 ≤ (deps frame.1).length
  pushed : ∀ k, log.count (.push k) = if colorOf s.colors k = .white then 0 else 1
  examined : ∀ k j, log.count (.examine k j) = if j < seen deps s k then 1 else 0

section

variable {deps : K → List K} {keys done : List K} {s s' : Search K} {log : List (Event K)}
  {node dep : K} {i : Nat} {below : List (K × Nat)}

theorem events_pop (hst : s.stack = (node, i) :: below) (hi : (deps node).length ≤ i) :
    events deps s = [] := by
  rw [events, hst]
  simp only [List.getElem?_eq_none hi]

theorem events_examine (hst : s.stack = (node, i) :: below) (hdep : (deps node)[i]? = some dep) :
    events deps s =
      .examine node i :: if colorOf s.colors dep = .white then [.push dep] else [] := by
  rw [events, hst]
  simp only [hdep]

theorem Inv.gray_top (hs : Inv deps keys done s) (hst : s.stack = (node, i) :: below) :
    colorOf s.colors node = .gray :=
  (hs.gray node).mpr (by simp [nodes_cons hst])

/-- A gray type is looked at from its frame, and the frame on top is the type's. -/
theorem Inv.seen_top (hs : Inv deps keys done s) (hst : s.stack = (node, i) :: below) :
    seen deps s node = i := by
  simp [seen, hs.gray_top hst, hst]

/-- Looking at one more dependency of the top frame is one more in the record, and no other. -/
theorem Accounts.examine (ha : Accounts deps s log) (htop : seen deps s node = i)
    (hseen : ∀ k, seen deps s' k = if k = node then i + 1 else seen deps s k) (k : K) (j : Nat) :
    (log ++ [Event.examine node i]).count (.examine k j) = if j < seen deps s' k then 1 else 0 := by
  rw [List.count_append, ha.examined, hseen]
  by_cases hk : k = node
  · subst hk
    rw [htop, if_pos rfl]
    by_cases hj : j = i
    · subst hj
      simp
    · have hlt : j < i + 1 ↔ j < i := by omega
      simp [hlt, Ne.symm hj]
  · simp [hk, Ne.symm hk]

/-- The child index of the top frame moves, and no colour. -/
theorem Accounts.moved (ha : Accounts deps s log) (hs : Inv deps keys done s)
    (hst : s.stack = (node, i) :: below) (hdep : (deps node)[i]? = some dep)
    (hcolors : s'.colors = s.colors) (hst' : s'.stack = (node, i + 1) :: below) :
    Accounts deps s' (log ++ [.examine node i]) where
  bound := by
    intro frame hframe
    rw [hst', List.mem_cons] at hframe
    rcases hframe with rfl | hframe
    · exact (List.getElem?_eq_some_iff.mp hdep).1
    · exact ha.bound frame (by simp [hst, hframe])
  pushed := by
    intro k
    rw [List.count_append, ha.pushed, hcolors]
    simp
  examined := by
    refine ha.examine (hs.seen_top hst) fun k => ?_
    have hgray := hs.gray_top hst
    by_cases hk : k = node
    · subst hk
      simp [seen, hcolors, hgray, hst']
    · simp [seen, hcolors, hst, hst', List.lookup_cons, beq_false_of_ne hk, hk]

theorem Accounts.popped (ha : Accounts deps s log) (hs : Inv deps keys done s)
    (hst : s.stack = (node, i) :: below) (hi : (deps node).length ≤ i)
    (hcolors : s'.colors = s.colors.insert node .black) (hst' : s'.stack = below) :
    Accounts deps s' log where
  bound := fun frame hframe => ha.bound frame (by simp [hst, hst' ▸ hframe])
  pushed := by
    intro k
    rw [ha.pushed, hcolors, colorOf_insert]
    have hgray := hs.gray_top hst
    by_cases hk : k = node
    · simp [hk, hgray]
    · simp [hk]
  examined := by
    intro k j
    rw [ha.examined]
    suffices hseen : seen deps s' k = seen deps s k by rw [hseen]
    by_cases hk : k = node
    · subst hk
      have hlen : i = (deps k).length := le_antisymm (ha.bound (k, i) (by simp [hst])) hi
      rw [hs.seen_top hst, seen, hcolors, colorOf_insert, if_pos rfl, hlen]
    · simp [seen, hcolors, colorOf_insert, hst, hst', List.lookup_cons, beq_false_of_ne hk, hk]

theorem Accounts.descended (ha : Accounts deps s log) (hs : Inv deps keys done s)
    (hst : s.stack = (node, i) :: below) (hdep : (deps node)[i]? = some dep)
    (hwhite : colorOf s.colors dep = .white) (hcolors : s'.colors = s.colors.insert dep .gray)
    (hst' : s'.stack = (dep, 0) :: (node, i + 1) :: below) :
    Accounts deps s' (log ++ [.examine node i, .push dep]) where
  bound := by
    intro frame hframe
    rw [hst', List.mem_cons, List.mem_cons] at hframe
    rcases hframe with rfl | rfl | hframe
    · exact Nat.zero_le _
    · exact (List.getElem?_eq_some_iff.mp hdep).1
    · exact ha.bound frame (by simp [hst, hframe])
  pushed := by
    intro k
    rw [List.count_append, ha.pushed, hcolors, colorOf_insert]
    by_cases hk : k = dep
    · simp [hk, hwhite]
    · simp [hk, Ne.symm hk]
  examined := by
    intro k j
    have hgray := hs.gray_top hst
    have hne : node ≠ dep := by
      rintro rfl
      rw [hgray] at hwhite
      cases hwhite
    -- the parent has looked at one child more, and the child begins at its first
    have hseen : ∀ k, seen deps s' k = if k = node then i + 1 else seen deps s k := by
      intro k
      by_cases hdep : k = dep
      · subst hdep
        simp [seen, hcolors, colorOf_insert, hst', hwhite, Ne.symm hne]
      · by_cases hk : k = node
        · subst hk
          simp [seen, hcolors, colorOf_insert, hst', hgray, hne, List.lookup_cons,
            beq_false_of_ne hne]
        · simp [seen, hcolors, colorOf_insert, hst, hst', List.lookup_cons, hk, hdep,
            beq_false_of_ne hk, beq_false_of_ne hdep]
    rw [List.append_cons, List.count_append, ha.examine (hs.seen_top hst) hseen]
    simp

/-- **One iteration records what it does.** -/
theorem Accounts.step (ha : Accounts deps s log) (hs : Inv deps keys done s)
    (h : Search.step deps s = some s') : Accounts deps s' (log ++ events deps s) := by
  obtain ⟨node, i, below, hst, hcase⟩ := step_cases h
  rcases hcase with ⟨hi, rfl⟩ | ⟨dep, hdep, ⟨hg, rfl⟩ | ⟨hw, rfl⟩ | ⟨hb, rfl⟩⟩
  · rw [events_pop hst hi, List.append_nil]
    exact ha.popped hs hst hi rfl rfl
  · rw [events_examine hst hdep, hg]
    exact ha.moved hs hst hdep rfl rfl
  · rw [events_examine hst hdep, hw]
    exact ha.descended hs hst hdep hw rfl rfl
  · rw [events_examine hst hdep, hb]
    exact ha.moved hs hst hdep rfl rfl

end

/-! ## From one iteration to the whole run -/

theorem accounts_init (deps : K → List K) (keys : List K) : Accounts deps (init keys) [] where
  bound := fun frame hframe => absurd hframe (by simp [init])
  pushed := fun k => by simp [colorOf_init]
  examined := fun k j => by simp [seen, colorOf_init]

variable {deps : K → List K} {keys done : List K} {ids : Finset K}

/-- A white root is pushed, and nothing of its list was looked at. -/
theorem Accounts.start {s : Search K} {log : List (Event K)} (ha : Accounts deps s log)
    (hidle : Idle deps keys done s) {root : K} (hw : colorOf s.colors root = .white) :
    Accounts deps (s.start root) (log ++ [.push root]) where
  bound := by
    intro frame hframe
    rw [Search.start, List.mem_singleton] at hframe
    subst hframe
    exact Nat.zero_le _
  pushed := by
    intro k
    rw [List.count_append, ha.pushed, Search.start, colorOf_insert]
    by_cases hk : k = root
    · simp [hk, hw]
    · simp [hk, Ne.symm hk]
  examined := by
    intro k j
    rw [List.count_append, ha.examined]
    -- between two roots nothing is gray, so only the new root could have moved
    suffices hseen : seen deps (s.start root) k = seen deps s k by simp [hseen]
    by_cases hk : k = root
    · subst hk
      simp [seen, Search.start, colorOf_insert, hw]
    · have hgray : colorOf s.colors k ≠ .gray := fun hg => by
        have hmem := (hidle.inv.gray k).mp hg
        rw [nodes, hidle.empty] at hmem
        cases hmem
      cases hc : colorOf s.colors k with
      | white => simp [seen, Search.start, colorOf_insert, hk, hc]
      | gray => exact absurd hc hgray
      | black => simp [seen, Search.start, colorOf_insert, hk, hc]

theorem Logged.accounts_loop {l : Logged K}
    (h : (∃ done, Inv deps keys done l.search) ∧ Accounts deps l.search l.log) :
    Accounts deps
      (whileLoop (fun l => work deps ids l.search) (Logged.step deps) l).search
      (whileLoop (fun l => work deps ids l.search) (Logged.step deps) l).log := by
  refine (whileLoop_invariant (I := fun l : Logged K =>
    (∃ done, Inv deps keys done l.search) ∧ Accounts deps l.search l.log) ?_ h).2
  rintro t t' ⟨⟨done, hinv⟩, ha⟩ hstep
  obtain ⟨s', hs', rfl⟩ := Option.map_eq_some_iff.mp hstep
  exact ⟨hinv.step hs', ha.step hinv hs'⟩

/-- **One root**, with the record. -/
theorem Logged.accounts_visit {l l' : Logged K} (hidle : Idle deps keys done l.search)
    (ha : Accounts deps l.search l.log) {root : K} (h : l.visit deps ids root = some l') :
    Accounts deps l'.search l'.log := by
  unfold Logged.visit at h
  cases hc : l.search.colors.get root with
  | none => simp [hc] at h
  | some c =>
    cases c with
    | white =>
      simp only [hc, Option.some.injEq] at h
      subst h
      have hw := colorOf_get hc
      exact Logged.accounts_loop ⟨⟨done, hidle.start hw⟩, ha.start hidle hw⟩
    | gray =>
      simp only [hc, Option.some.injEq] at h
      exact h ▸ ha
    | black =>
      simp only [hc, Option.some.injEq] at h
      exact h ▸ ha

theorem Logged.accounts_visitAll (hids : ∀ a b, b ∈ deps a → b ∈ ids) :
    ∀ (roots : List K), (∀ r ∈ roots, r ∈ keys) → ∀ {done : List K} {l l' : Logged K},
      Idle deps keys done l.search → Accounts deps l.search l.log →
      roots.foldlM (Logged.visit deps ids) l = some l' → Accounts deps l'.search l'.log := by
  intro roots
  induction roots with
  | nil =>
    intro _ done l l' _ ha h
    cases h
    exact ha
  | cons r roots ih =>
    intro hroots done l l' hidle ha h
    obtain ⟨s₁, done₁, hv, hidle₁, -, -⟩ := hidle.visit hids (hroots r List.mem_cons_self)
    rw [List.foldlM_cons] at h
    obtain ⟨l₁, hl₁, hrest⟩ := Option.bind_eq_some_iff.mp h
    have hsearch : l₁.search = s₁ := by
      have hmap := Logged.visit_search deps ids l r
      rw [hl₁, hv] at hmap
      exact Option.some.inj hmap
    exact ih (fun x hx => hroots x (List.mem_cons_of_mem _ hx)) (hsearch ▸ hidle₁)
      (Logged.accounts_visit hidle ha hl₁) hrest

end Search

section

variable (dependencies : HashMap K (List K)) (keys : List K)

/-- No loop of the search can go on for ever, wherever it is entered. -/
theorem Search.step_wellFounded :
    WellFounded fun s' s => Search.step (depsOf dependencies) s = some s' :=
  Subrelation.wf (fun h => Search.work_step (fun _ _ => mem_mentioned) h)
    (measure (Search.work (depsOf dependencies) (mentioned dependencies))).wf

/-- The recorded run ends, is the run of `detect_cycles`, and has nothing in progress at its end. -/
theorem Search.Logged.run_spec :
    ∃ l done, Search.Logged.run dependencies keys = some l ∧
      findCycles dependencies keys = some l.search.cycles ∧
      Search.Idle (depsOf dependencies) keys done l.search ∧
      (∀ k ∈ keys, colorOf l.search.colors k ≠ .white) ∧
      Search.Accounts (depsOf dependencies) l.search l.log := by
  have hids : ∀ a b, b ∈ depsOf dependencies a → b ∈ mentioned dependencies :=
    fun _ _ => mem_mentioned
  have hstart := Search.idle_init (depsOf dependencies) keys
  obtain ⟨s, done, hs, hidle, hseen, -⟩ := hstart.visitAll hids keys fun _ h => h
  have hmap := foldlM_map (f := Search.Logged.search)
    (Search.Logged.visit_search (depsOf dependencies) (mentioned dependencies)) keys
    (Search.Logged.init keys)
  obtain ⟨l, hl, rfl⟩ := Option.map_eq_some_iff.mp (hmap.trans hs)
  refine ⟨l, done, hl, ?_, hidle, hseen, ?_⟩
  · rw [findCycles, hs]
    rfl
  · exact Search.Logged.accounts_visitAll hids keys (fun _ h => h) hstart
      (Search.accounts_init _ _) hl

/-- **The search terminates and its indexing is safe.** At every loop head the stack is the path,
its types are the gray ones, each once, and each frame was pushed by the child that the one below
it last stepped over; a child index is in range when it is used, and a gray child is on the path.
Every root has a colour. No loop goes on for ever; and over the whole run, whatever the lists
hold and in whatever order the roots come, every id is pushed at most once, every root is, and
every position of the list of every id that is pushed is looked at exactly once. -/
theorem detectCycles_run :
    (∀ s, LoopHead dependencies keys s →
      s.path = s.nodes.reverse ∧ s.nodes.Nodup ∧
      (∀ k, colorOf s.colors k = .gray ↔ k ∈ s.nodes) ∧
      s.stack.IsChain (Steps (depsOf dependencies)) ∧
      ∀ node childIdx below, s.stack = (node, childIdx) :: below →
        (depsOf dependencies node).length ≤ childIdx ∨
        ∃ dep, (depsOf dependencies node)[childIdx]? = some dep ∧
          (colorOf s.colors dep = .gray →
            ∃ start, s.path.idxOf? dep = some start ∧ start < s.path.length)) ∧
    (∀ before root after s, keys = before ++ root :: after →
      before.foldlM (Search.visit (depsOf dependencies) (mentioned dependencies))
        (Search.init keys) = some s → ∃ color, s.colors.get root = some color) ∧
    (WellFounded fun s' s => Search.step (depsOf dependencies) s = some s') ∧
    ∃ l, Search.Logged.run dependencies keys = some l ∧
      findCycles dependencies keys = some l.search.cycles ∧ l.search.stack = [] ∧
      (∀ id, l.log.count (.push id) ≤ 1) ∧ (∀ id ∈ keys, .push id ∈ l.log) ∧
      ∀ id childIdx, l.log.count (.examine id childIdx) =
        if .push id ∈ l.log ∧ childIdx < (depsOf dependencies id).length then 1 else 0 := by
  refine ⟨fun s hs => ?_, fun before root after s hkeys hbefore => ?_,
    Search.step_wellFounded dependencies, ?_⟩
  · obtain ⟨done, hinv⟩ := hs.inv
    refine ⟨hinv.path_eq, hinv.nodup, hinv.gray, hinv.steps, fun node childIdx below hst => ?_⟩
    rcases Nat.lt_or_ge childIdx (depsOf dependencies node).length with hlt | hge
    · have hdep := List.getElem?_eq_getElem hlt
      refine Or.inr ⟨_, hdep, fun hg => ?_⟩
      obtain ⟨start, hstart, -⟩ := hinv.report hst hdep hg
      exact ⟨start, hstart, (List.idxOf?_eq_some_iff.mp hstart).1⟩
    · exact Or.inl hge
  · obtain ⟨s', done, hs', hidle, -, -⟩ := Search.Idle.visitAll (fun _ _ => mem_mentioned) before
      (fun r hr => by rw [hkeys]; exact List.mem_append_left _ hr)
      (Search.idle_init (depsOf dependencies) keys)
    cases hbefore.symm.trans hs'
    exact hidle.inv.known root (by simp [hkeys])
  · obtain ⟨l, done, hl, hfind, hidle, hseen, ha⟩ := Search.Logged.run_spec dependencies keys
    -- what was ever pushed is what has a colour at the end
    have hpush : ∀ id, .push id ∈ l.log ↔ colorOf l.search.colors id ≠ .white := by
      intro id
      rw [← List.count_pos_iff, ha.pushed]
      split <;> simp [*]
    refine ⟨l, hl, hfind, hidle.empty, fun id => ?_, fun id hid => (hpush id).mpr (hseen id hid),
      fun id childIdx => ?_⟩
    · rw [ha.pushed]
      split <;> simp
    · rw [ha.examined, Search.seen]
      simp only [hpush]
      cases hc : colorOf l.search.colors id with
      | white => simp
      | gray =>
        -- nothing is gray once the stack is empty
        have hmem := (hidle.inv.gray id).mp hc
        rw [Search.nodes, hidle.empty] at hmem
        cases hmem
      | black => simp

end

end Di
end StanoPlatform
