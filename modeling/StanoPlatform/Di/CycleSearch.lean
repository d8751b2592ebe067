import StanoPlatform.Lib.Digraph
import StanoPlatform.Di.DetectCycles

/-!
# `Di/CycleSearch.lean` — the search finds a cycle in every component that has one, and no other

The white-path argument, as an invariant of the loop head. `done` is the finishing order — the
black types, newest first — and the invariant ties the three separately mutated structures
together: the path is the stack, the stack is the gray types, and each frame was pushed by the
child its parent last stepped over. From that a reported slice is a real cycle
(`Search.Inv.report`), because a gray child is on the path.

Completeness is one observation about `done`: every edge out of a finished type was examined, and
it led to a type finished *earlier* or it was reported (`Finished`). So the first-finished type
of a component that has a cycle must have been reported with it — an induction over `done` and
nothing else (`Finished.reports`).

Nothing of the container is in this file: it is about the search of `Di/DetectCycles.lean`, over any
keys and any lists of dependencies. `IsCycle`, `SameComponent` and `OnCycle` are those of
`Lib/Digraph.lean`.
-/

set_option autoImplicit false

namespace StanoPlatform
namespace Di

open Lib Relation

variable {K : Type}

/-- `a` declares `b` as a dependency. -/
def Edge (deps : K → List K) (a b : K) : Prop := b ∈ deps a

/-- Some report runs from `w` round to `u`: the back edge `u → w` was reported. -/
def Reported (cycles : List (List K)) (u w : K) : Prop :=
  ∃ c ∈ cycles, c.head? = some w ∧ c.getLast? = some u

/-- The children every frame has stepped over are accounted for: finished, reported, or the
frame right above. -/
def Covered (deps : K → List K) (done : List K) (cycles : List (List K)) :
    Option K → List (K × Nat) → Prop
  | _, [] => True
  | above, (k, i) :: below =>
    (∀ j, j < i → ∀ w, (deps k)[j]? = some w →
      w ∈ done ∨ Reported cycles k w ∨ above = some w) ∧
    Covered deps done cycles (some k) below

/-- Every edge out of a finished type leads to one finished before it, or was reported. -/
def Finished (deps : K → List K) (cycles : List (List K)) : List K → Prop
  | [] => True
  | u :: rest => (∀ w ∈ deps u, w ∈ rest ∨ Reported cycles u w) ∧ Finished deps cycles rest

/-- The frame below stepped over the frame above last. -/
def Steps (deps : K → List K) (above below : K × Nat) : Prop :=
  0 < below.2 ∧ (deps below.1)[below.2 - 1]? = some above.1

def Search.nodes (s : Search K) : List K := s.stack.map Prod.fst

theorem Reported.mono {cycles cycles' : List (List K)} (hs : ∀ c ∈ cycles, c ∈ cycles')
    {u w : K} : Reported cycles u w → Reported cycles' u w :=
  fun ⟨c, hc, h⟩ => ⟨c, hs c hc, h⟩

theorem Covered.mono {deps : K → List K} {done done' : List K} {cycles cycles' : List (List K)}
    (hd : ∀ k ∈ done, k ∈ done') (hc : ∀ c ∈ cycles, c ∈ cycles') :
    ∀ {stack : List (K × Nat)} {above : Option K},
      Covered deps done cycles above stack → Covered deps done' cycles' above stack
  | [], _, _ => trivial
  | (_, _) :: _, _, h =>
    ⟨fun j hj w hw => (h.1 j hj w hw).imp (hd w) (Or.imp (Reported.mono hc) id),
      Covered.mono hd hc h.2⟩

theorem Covered.finish {deps : K → List K} {done : List K} {cycles : List (List K)} {k : K}
    (hk : k ∈ done) : ∀ {stack : List (K × Nat)},
      Covered deps done cycles (some k) stack → Covered deps done cycles none stack
  | [], _ => trivial
  | (_, _) :: _, h => by
    refine ⟨fun j hj w hw => ?_, h.2⟩
    rcases h.1 j hj w hw with hw | hw | hw
    · exact Or.inl hw
    · exact Or.inr (Or.inl hw)
    · exact Or.inl (Option.some.inj hw ▸ hk)

theorem Covered.advance {deps : K → List K} {done : List K} {cycles : List (List K)}
    {node dep : K} {i : Nat} {below : List (K × Nat)} {above : Option K}
    (h : Covered deps done cycles none ((node, i) :: below)) (hdep : (deps node)[i]? = some dep)
    (hnew : dep ∈ done ∨ Reported cycles node dep ∨ above = some dep) :
    Covered deps done cycles above ((node, i + 1) :: below) := by
  refine ⟨fun j hj w hw => ?_, h.2⟩
  by_cases hji : j = i
  · subst hji
    rw [hdep] at hw
    exact Option.some.inj hw ▸ hnew
  · rcases h.1 j (by omega) w hw with hw | hw | hw
    · exact Or.inl hw
    · exact Or.inr (Or.inl hw)
    · exact absurd hw (by simp)

theorem Finished.mono {deps : K → List K} {cycles cycles' : List (List K)}
    (hc : ∀ c ∈ cycles, c ∈ cycles') :
    ∀ {done : List K}, Finished deps cycles done → Finished deps cycles' done
  | [], _ => trivial
  | _ :: _, h => ⟨fun w hw => (h.1 w hw).imp id (Reported.mono hc), Finished.mono hc h.2⟩

/-- **Completeness, from the finishing order alone**: a finished type on a cycle is in the
component of some reported cycle. -/
theorem Finished.reports {deps : K → List K} {cycles : List (List K)}
    (hreal : ∀ c ∈ cycles, IsCycle (Edge deps) c) :
    ∀ {done : List K}, Finished deps cycles done → ∀ {x : K}, x ∈ done →
      OnCycle (Edge deps) x → ∃ c ∈ cycles, ∀ u ∈ c, SameComponent (Edge deps) x u := by
  intro done
  induction done with
  | nil => intro _ x hx; exact absurd hx (by simp)
  | cons u rest ih =>
    intro hf x hx hcyc
    rcases List.mem_cons.mp hx with rfl | hx
    · -- the cycle leaves `x` by some edge `x → w`, and comes back
      obtain ⟨w, hxw, hwx⟩ := TransGen.head'_iff.mp hcyc
      rcases hf.1 w hxw with hw | ⟨c, hc, -, hlast⟩
      · obtain ⟨c, hc, hsame⟩ := ih hf.2 hw (TransGen.tail' hwx hxw)
        have hxw' : SameComponent (Edge deps) x w := ⟨.single hxw, hwx⟩
        exact ⟨c, hc, fun v hv => hxw'.trans (hsame v hv)⟩
      · exact ⟨c, hc, fun v hv =>
          (hreal c hc).sameComponent (List.mem_of_getLast? hlast) hv⟩
    · exact ih hf.2 hx hcyc

variable [DecidableEq K]

namespace Search

/-- The invariant of the loop head, and between roots: `done` is the finishing order. -/
structure Inv (deps : K → List K) (keys done : List K) (s : Search K) : Prop where
  path_eq : s.path = s.nodes.reverse
  nodup : s.nodes.Nodup
  gray : ∀ k, colorOf s.colors k = .gray ↔ k ∈ s.nodes
  black : ∀ k, colorOf s.colors k = .black ↔ k ∈ done
  steps : s.stack.IsChain (Steps deps)
  covered : Covered deps done s.cycles none s.stack
  finished : Finished deps s.cycles done
  real : ∀ c ∈ s.cycles, IsCycle (Edge deps) c
  known : ∀ k ∈ keys, ∃ c, s.colors.get k = some c

theorem colorOf_get {colors : HashMap K Color} {k : K} {c : Color} (h : colors.get k = some c) :
    colorOf colors k = c := by
  rw [colorOf, h]; rfl

theorem known_insert {keys : List K} {colors : HashMap K Color} (k : K) (c : Color)
    (h : ∀ k' ∈ keys, ∃ c, colors.get k' = some c) :
    ∀ k' ∈ keys, ∃ c', HashMap.get (colors.insert k c) k' = some c' := by
  intro k' hk'
  rw [HashMap.get_insert]
  split
  · exact ⟨c, rfl⟩
  · exact h k' hk'

omit [DecidableEq K] in
/-- Consecutive frames are edges, from the lower to the upper one. -/
theorem nodes_chain {deps : K → List K} : ∀ {stack : List (K × Nat)},
    stack.IsChain (Steps deps) → (stack.map Prod.fst).IsChain fun a b => Edge deps b a :=
  fun h => List.isChain_map_of_isChain Prod.fst
    (fun _ _ hab => List.mem_of_getElem? hab.2) h

theorem drop_idxOf {a b : List K} {x : K} (hx : x ∉ a) :
    (a ++ x :: b).idxOf? x = some a.length ∧ (a ++ x :: b).drop a.length = x :: b := by
  refine ⟨?_, List.drop_left⟩
  rw [List.idxOf?_eq_some_iff]
  refine ⟨by simp, by simp, fun j hj => ?_⟩
  rw [List.getElem_append_left hj]
  exact fun heq => hx (heq ▸ List.getElem_mem hj)

/-- **A back edge is found on the path, and what is reported is a cycle**: the slice from the
gray child down to the frame that declares it. -/
theorem Inv.report {deps : K → List K} {keys done : List K} {s : Search K}
    (hs : Inv deps keys done s) {node dep : K} {i : Nat} {below : List (K × Nat)}
    (hst : s.stack = (node, i) :: below) (hdep : (deps node)[i]? = some dep)
    (hg : colorOf s.colors dep = .gray) :
    ∃ start, s.path.idxOf? dep = some start ∧ IsCycle (Edge deps) (s.path.drop start) ∧
      (s.path.drop start).head? = some dep ∧ (s.path.drop start).getLast? = some node := by
  have hmem : dep ∈ s.nodes := (hs.gray dep).mp hg
  obtain ⟨inner, outer, hsplit⟩ := List.append_of_mem hmem
  have hnd := hs.nodup
  rw [hsplit] at hnd
  have hout : dep ∉ outer.reverse := fun h =>
    (List.nodup_cons.mp (List.nodup_append.mp hnd).2.1).1 (List.mem_reverse.mp h)
  -- the path is the stack from its bottom, so it is cut where the gray child stands on it
  have hpath : s.path = outer.reverse ++ dep :: inner.reverse := by
    rw [hs.path_eq, hsplit]; simp
  obtain ⟨hidx, hdrop⟩ := drop_idxOf (b := inner.reverse) hout
  have hslice : dep :: inner.reverse = (inner ++ [dep]).reverse := by simp
  -- the slice ends at the node whose child was met again
  have hhead : (inner ++ [dep]).head? = some node := by
    have : s.nodes.head? = some node := by rw [nodes, hst]; rfl
    rw [hsplit] at this
    cases inner with
    | nil => simpa using this
    | cons a inner => simpa using this
  have hlast : (dep :: inner.reverse).getLast? = some node := by
    rw [hslice, List.getLast?_reverse, hhead]
  refine ⟨outer.reverse.length, by rw [hpath]; exact hidx, ?_⟩
  rw [hpath, hdrop]
  refine ⟨⟨by simp, ?_, ?_, ?_⟩, rfl, ?_⟩
  · rw [hslice, List.nodup_reverse]
    refine hnd.sublist ?_
    rw [show inner ++ dep :: outer = inner ++ [dep] ++ outer by simp]
    exact List.sublist_append_left _ _
  · rw [hslice, List.isChain_reverse]
    have hchain := nodes_chain hs.steps
    rw [show s.stack.map Prod.fst = inner ++ [dep] ++ outer by
      rw [show s.stack.map Prod.fst = s.nodes from rfl, hsplit]; simp] at hchain
    exact hchain.left_of_append
  · rw [Option.some.inj ((List.getLast?_eq_some_getLast _).symm.trans hlast)]
    exact List.mem_of_getElem? hdep
  · exact hlast

section

variable {deps : K → List K} {keys done : List K} {s : Search K} {node : K} {i : Nat}
  {below : List (K × Nat)}

omit [DecidableEq K] in
theorem nodes_cons (hst : s.stack = (node, i) :: below) :
    s.nodes = node :: below.map Prod.fst := by
  rw [nodes, hst]
  rfl

/-- Stepping over a child changes no type of a frame, and so no edge between two. -/
theorem Inv.steps_advance (hs : Inv deps keys done s) (hst : s.stack = (node, i) :: below) :
    ((node, i + 1) :: below).IsChain (Steps deps) := by
  have hsteps := hs.steps
  rw [hst] at hsteps
  exact List.isChain_cons.mpr ⟨(List.isChain_cons.mp hsteps).1, hsteps.tail⟩

/-- A frame is popped: all its children were stepped over. -/
theorem Inv.popped (hs : Inv deps keys done s) (hst : s.stack = (node, i) :: below)
    (hi : (deps node).length ≤ i) :
    Inv deps keys (node :: done)
      { s with colors := s.colors.insert node .black
               stack := below, path := s.path.dropLast } := by
  have hnodes := nodes_cons hst
  have hcov := hs.covered
  have hsteps := hs.steps
  have hnd := hs.nodup
  rw [hst] at hcov hsteps
  rw [hnodes] at hnd
  refine ⟨?_, (List.nodup_cons.mp hnd).2, ?_, ?_, hsteps.tail, ?_, ?_, hs.real,
    known_insert node _ hs.known⟩
  · show s.path.dropLast = (below.map Prod.fst).reverse
    rw [hs.path_eq, hnodes]; simp
  · intro k
    show colorOf (s.colors.insert node .black) k = .gray ↔ k ∈ below.map Prod.fst
    rw [colorOf_insert]
    by_cases hk : k = node
    · subst hk; simpa using (List.nodup_cons.mp hnd).1
    · rw [if_neg hk, hs.gray, hnodes]; simp [hk]
  · intro k
    show colorOf (s.colors.insert node .black) k = .black ↔ k ∈ node :: done
    rw [colorOf_insert]
    by_cases hk : k = node
    · simp [hk]
    · rw [if_neg hk, hs.black]; simp [hk]
  · exact Covered.finish List.mem_cons_self
      (Covered.mono (fun _ hk => List.mem_cons_of_mem _ hk) (fun _ hc => hc) hcov.2)
  -- every child of the node has been looked at: it is finished already, or it was reported
  · refine ⟨fun w hw => ?_, hs.finished⟩
    obtain ⟨j, hj, hjw⟩ := List.mem_iff_getElem.mp hw
    rcases hcov.1 j (by omega) w (by rw [List.getElem?_eq_getElem hj, hjw]) with h | h | h
    · exact Or.inl h
    · exact Or.inr h
    · exact absurd h (by simp)

variable {dep : K}

/-- A back edge is reported. -/
theorem Inv.reported (hs : Inv deps keys done s) (hst : s.stack = (node, i) :: below)
    (hdep : (deps node)[i]? = some dep) (hg : colorOf s.colors dep = .gray) :
    Inv deps keys done
      { s with stack := (node, i + 1) :: below
               cycles := s.cycles ++ [s.path.drop ((s.path.idxOf? dep).getD 0)] } := by
  have hnodes := nodes_cons hst
  have hcov := hs.covered
  rw [hst] at hcov
  have hnd : (node :: below.map Prod.fst).Nodup := hnodes ▸ hs.nodup
  obtain ⟨start, hidx, hcyc, hhead, hlast⟩ := hs.report hst hdep hg
  have hkeep : ∀ c ∈ s.cycles, c ∈ s.cycles ++ [s.path.drop start] :=
    fun c hc => List.mem_append_left _ hc
  rw [hidx, Option.getD_some]
  refine ⟨by rw [hs.path_eq, hnodes]; rfl, hnd, fun k => by rw [hs.gray, hnodes]; rfl,
    hs.black, hs.steps_advance hst, ?_, hs.finished.mono hkeep, ?_, hs.known⟩
  · refine (hcov.mono (fun _ h => h) hkeep).advance hdep (Or.inr (Or.inl ?_))
    exact ⟨_, by simp, hhead, hlast⟩
  · intro c hc
    rcases List.mem_append.mp hc with hc | hc
    · exact hs.real c hc
    · exact List.mem_singleton.mp hc ▸ hcyc

/-- A type met for the first time is on no frame, and not finished: it gets one. -/
theorem Inv.pushed (hs : Inv deps keys done s) (hst : s.stack = (node, i) :: below)
    (hdep : (deps node)[i]? = some dep) (hw : colorOf s.colors dep = .white) :
    Inv deps keys done
      { s with colors := s.colors.insert dep .gray, path := s.path ++ [dep]
               stack := (dep, 0) :: (node, i + 1) :: below } := by
  have hnodes := nodes_cons hst
  have hcov := hs.covered
  rw [hst] at hcov
  -- a white child is on nobody's path yet
  have hfresh : dep ∉ s.nodes := fun hd => by
    rw [(hs.gray dep).mpr hd] at hw; exact absurd hw (by simp)
  refine ⟨?_, ?_, ?_, ?_, ?_, ?_, hs.finished, hs.real, known_insert dep _ hs.known⟩
  · show s.path ++ [dep] = (dep :: node :: below.map Prod.fst).reverse
    rw [hs.path_eq, hnodes]; simp
  · show (dep :: node :: below.map Prod.fst).Nodup
    exact List.nodup_cons.mpr ⟨hnodes ▸ hfresh, hnodes ▸ hs.nodup⟩
  · intro k
    show colorOf (s.colors.insert dep .gray) k = .gray ↔ k ∈ dep :: node :: below.map Prod.fst
    rw [colorOf_insert]
    by_cases hk : k = dep
    · simp [hk]
    · rw [if_neg hk, hs.gray, hnodes]; simp [hk]
  · intro k
    show colorOf (s.colors.insert dep .gray) k = .black ↔ k ∈ done
    rw [colorOf_insert]
    by_cases hk : k = dep
    · subst hk
      have : ¬ k ∈ done := fun hd => by
        rw [(hs.black k).mpr hd] at hw; exact absurd hw (by simp)
      simpa using this
    · rw [if_neg hk, hs.black]
  · exact List.isChain_cons_cons.mpr ⟨⟨Nat.succ_pos i, hdep⟩, hs.steps_advance hst⟩
  · exact ⟨fun j hj => absurd hj (Nat.not_lt_zero j),
      hcov.advance hdep (Or.inr (Or.inr rfl))⟩

/-- A finished type is stepped over. -/
theorem Inv.skipped (hs : Inv deps keys done s) (hst : s.stack = (node, i) :: below)
    (hdep : (deps node)[i]? = some dep) (hb : colorOf s.colors dep = .black) :
    Inv deps keys done { s with stack := (node, i + 1) :: below } := by
  have hnodes := nodes_cons hst
  have hcov := hs.covered
  have hnd : (node :: below.map Prod.fst).Nodup := hnodes ▸ hs.nodup
  rw [hst] at hcov
  exact ⟨by rw [hs.path_eq, hnodes]; rfl, hnd, fun k => by rw [hs.gray, hnodes]; rfl,
    hs.black, hs.steps_advance hst, hcov.advance hdep (Or.inl ((hs.black dep).mp hb)),
    hs.finished, hs.real, hs.known⟩

/-- **One iteration keeps the invariant**; finishing a frame puts its type on `done`. -/
theorem Inv.step {s' : Search K} (hs : Inv deps keys done s) (h : Search.step deps s = some s') :
    ∃ done', Inv deps keys done' s' := by
  obtain ⟨node, i, below, hst, hcase⟩ := step_cases h
  rcases hcase with ⟨hi, rfl⟩ | ⟨dep, hdep, ⟨hg, rfl⟩ | ⟨hw, rfl⟩ | ⟨hb, rfl⟩⟩
  · exact ⟨node :: done, hs.popped hst hi⟩
  · exact ⟨done, hs.reported hst hdep hg⟩
  · exact ⟨done, hs.pushed hst hdep hw⟩
  · exact ⟨done, hs.skipped hst hdep hb⟩

end

/-! ## From one iteration to all roots -/

/-- Nothing in progress: the state between two rounds of the `for`. -/
structure Idle (deps : K → List K) (keys done : List K) (s : Search K) : Prop where
  inv : Inv deps keys done s
  empty : s.stack = []

theorem colorOf_init (keys : List K) (k : K) : colorOf (init keys).colors k = .white := by
  have hfold : ∀ (l : List K) (m : HashMap K Color), colorOf m k = .white →
      colorOf (l.foldl (fun colors id => colors.insert id .white) m) k = .white := by
    intro l
    induction l with
    | nil => intro m hm; exact hm
    | cons a l ih =>
      intro m hm
      refine ih _ ?_
      rw [colorOf_insert]
      split
      · rfl
      · exact hm
  exact hfold keys ∅ rfl

theorem known_init (keys : List K) : ∀ k ∈ keys, ∃ c, (init keys).colors.get k = some c := by
  have hfold : ∀ (l : List K) (m : HashMap K Color) (k : K),
      k ∈ l ∨ (∃ c, m.get k = some c) →
        ∃ c, HashMap.get (l.foldl (fun colors id => colors.insert id .white) m) k = some c := by
    intro l
    induction l with
    | nil => intro m k h; exact h.resolve_left (by simp)
    | cons a l ih =>
      intro m k h
      refine ih _ k ?_
      by_cases hk : k = a
      · exact Or.inr ⟨.white, by rw [hk, HashMap.get_insert_self]⟩
      · rw [HashMap.get_insert_ne _ _ hk]
        exact h.imp (fun hm => (List.mem_cons.mp hm).resolve_left hk) id
  exact fun k hk => hfold keys ∅ k (Or.inl hk)

theorem idle_init (deps : K → List K) (keys : List K) : Idle deps keys [] (init keys) where
  empty := rfl
  inv :=
    { path_eq := rfl
      nodup := List.nodup_nil
      gray := fun k => by
        rw [colorOf_init]
        exact ⟨fun h => absurd h (by simp), fun h => absurd h (by simp [nodes, init])⟩
      black := fun k => by rw [colorOf_init]; simp
      steps := List.isChain_nil
      covered := trivial
      finished := trivial
      real := fun c hc => absurd hc (by simp [init])
      known := known_init keys }

/-- A white root starts a search that satisfies the invariant. -/
theorem Idle.start {deps : K → List K} {keys done : List K} {s : Search K}
    (hs : Idle deps keys done s) {root : K} (hw : colorOf s.colors root = .white) :
    Inv deps keys done (s.start root) := by
  refine ⟨rfl, List.nodup_singleton root, ?_, ?_, List.isChain_singleton _,
    ⟨fun j hj => absurd hj (Nat.not_lt_zero j), trivial⟩, hs.inv.finished, hs.inv.real,
    known_insert root _ hs.inv.known⟩
  · intro k
    show colorOf (s.colors.insert root .gray) k = .gray ↔ k ∈ [root]
    rw [colorOf_insert]
    by_cases hk : k = root
    · simp [hk]
    · rw [if_neg hk, hs.inv.gray, nodes, hs.empty]; simp [hk]
  · intro k
    show colorOf (s.colors.insert root .gray) k = .black ↔ k ∈ done
    rw [colorOf_insert]
    by_cases hk : k = root
    · have : ¬ root ∈ done := fun hd => by
        rw [(hs.inv.black root).mpr hd] at hw; exact absurd hw (by simp)
      simpa [hk] using this
    · rw [if_neg hk, hs.inv.black]

/-- A type that has left white never comes back to it. -/
theorem step_color_mono {deps : K → List K} {s s' : Search K} (h : Search.step deps s = some s')
    {k : K} (hk : colorOf s.colors k ≠ .white) : colorOf s'.colors k ≠ .white := by
  obtain ⟨node, i, below, -, hcase⟩ := step_cases h
  rcases hcase with ⟨-, rfl⟩ | ⟨dep, -, ⟨-, rfl⟩ | ⟨-, rfl⟩ | ⟨-, rfl⟩⟩
  · show colorOf (s.colors.insert node .black) k ≠ .white
    rw [colorOf_insert]; split
    · simp
    · exact hk
  · exact hk
  · show colorOf (s.colors.insert dep .gray) k ≠ .white
    rw [colorOf_insert]; split
    · simp
    · exact hk
  · exact hk

variable {deps : K → List K} {ids : Finset K}

/-- **One root.** The round leaves nothing in progress, keeps what had been visited visited, and
the root is visited. -/
theorem Idle.visit (hids : ∀ a b, b ∈ deps a → b ∈ ids) {keys done : List K} {s : Search K}
    (hs : Idle deps keys done s) {root : K} (hroot : root ∈ keys) :
    ∃ s' done', Search.visit deps ids s root = some s' ∧ Idle deps keys done' s' ∧
      colorOf s'.colors root ≠ .white ∧
      ∀ k, colorOf s.colors k ≠ .white → colorOf s'.colors k ≠ .white := by
  obtain ⟨c, hc⟩ := hs.inv.known root hroot
  have hcolor := colorOf_get hc
  unfold Search.visit
  rw [hc]
  cases c with
  | white =>
    have hinv : ∃ done', Inv deps keys done'
        (whileLoop (work deps ids) (Search.step deps) (s.start root)) :=
      whileLoop_invariant (I := fun t => ∃ done', Inv deps keys done' t)
        (fun _ _ ⟨_, ht⟩ h => ht.step h) ⟨done, hs.start hcolor⟩
    obtain ⟨done', hinv⟩ := hinv
    -- what has a colour never loses it, so roots that were done stay done
    have hmono : ∀ k, colorOf (s.start root).colors k ≠ .white →
        colorOf (whileLoop (work deps ids) (Search.step deps) (s.start root)).colors k ≠ .white :=
      fun k hk => whileLoop_invariant (I := fun t : Search K => colorOf t.colors k ≠ .white)
        (fun _ _ ht h => step_color_mono h ht) hk
    refine ⟨_, done', rfl, ⟨hinv, stack_whileLoop hids _⟩, ?_, fun k hk => hmono k ?_⟩
    · refine hmono root ?_
      show colorOf (s.colors.insert root .gray) root ≠ .white
      rw [colorOf_insert, if_pos rfl]; simp
    · show colorOf (s.colors.insert root .gray) k ≠ .white
      rw [colorOf_insert]; split
      · simp
      · exact hk
  | gray => exact ⟨s, done, rfl, hs, by rw [hcolor]; simp, fun _ h => h⟩
  | black => exact ⟨s, done, rfl, hs, by rw [hcolor]; simp, fun _ h => h⟩

/-- **All roots**, in whatever order. -/
theorem Idle.visitAll (hids : ∀ a b, b ∈ deps a → b ∈ ids) {keys : List K} :
    ∀ (roots : List K), (∀ r ∈ roots, r ∈ keys) → ∀ {done : List K} {s : Search K},
      Idle deps keys done s →
      ∃ s' done', roots.foldlM (Search.visit deps ids) s = some s' ∧ Idle deps keys done' s' ∧
        (∀ r ∈ roots, colorOf s'.colors r ≠ .white) ∧
        ∀ k, colorOf s.colors k ≠ .white → colorOf s'.colors k ≠ .white := by
  intro roots
  induction roots with
  | nil => intro _ done s hs; exact ⟨s, done, rfl, hs, by simp, fun _ h => h⟩
  | cons r roots ih =>
    intro hr done s hs
    obtain ⟨s₁, done₁, hv, hs₁, hr₁, hm₁⟩ := hs.visit hids (hr r List.mem_cons_self)
    obtain ⟨s₂, done₂, hf, hs₂, hr₂, hm₂⟩ :=
      ih (fun x hx => hr x (List.mem_cons_of_mem _ hx)) hs₁
    refine ⟨s₂, done₂, ?_, hs₂, ?_, fun k hk => hm₂ k (hm₁ k hk)⟩
    · rw [List.foldlM_cons, hv]; exact hf
    · intro x hx
      rcases List.mem_cons.mp hx with rfl | hx
      · exact hm₂ _ hr₁
      · exact hr₂ x hx

end Search

/-- The states in which `detect_cycles` evaluates the condition of its `while let`: some root,
reached by the `for` and still white, and any number of iterations. -/
inductive LoopHead (dependencies : HashMap K (List K)) (keys : List K) : Search K → Prop
  | mk {before after : List K} {root : K} {s t : Search K} (hkeys : keys = before ++ root :: after)
      (hbefore : before.foldlM (Search.visit (depsOf dependencies) (mentioned dependencies))
        (Search.init keys) = some s)
      (hwhite : s.colors.get root = some .white)
      (hloop : AtHead (Search.step (depsOf dependencies)) (s.start root) t) :
      LoopHead dependencies keys t

theorem LoopHead.inv {dependencies : HashMap K (List K)} {keys : List K} {t : Search K}
    (h : LoopHead dependencies keys t) :
    ∃ done, Search.Inv (depsOf dependencies) keys done t := by
  obtain ⟨hkeys, hbefore, hwhite, hloop⟩ := h
  rename_i before after root s
  obtain ⟨s', done, hs', hidle, -, -⟩ := Search.Idle.visitAll (fun _ _ => mem_mentioned)
    before (fun r hr => by rw [hkeys]; exact List.mem_append_left _ hr)
    (Search.idle_init (depsOf dependencies) keys)
  rw [hbefore] at hs'
  have hcolor : colorOf s'.colors root = .white := by
    rw [← Option.some.inj hs']
    exact Search.colorOf_get hwhite
  have hst := hidle.start hcolor
  rw [← Option.some.inj hs'] at hst
  exact hloop.invariant (I := fun t => ∃ done, Search.Inv (depsOf dependencies) keys done t)
    (fun _ _ ⟨_, ht⟩ h => ht.step h) ⟨done, hst⟩

/-- **What the search returns**, over any keys in any order that include every type with
dependencies: it returns (no index is out of range), each list is a cycle, and every key on a
cycle shares its component with one of them. -/
theorem findCycles_spec (dependencies : HashMap K (List K)) (keys : List K)
    (hsrc : ∀ a b, Edge (depsOf dependencies) a b → a ∈ keys) :
    ∃ cycles, findCycles dependencies keys = some cycles ∧
      (∀ c ∈ cycles, IsCycle (Edge (depsOf dependencies)) c) ∧
      ∀ k, OnCycle (Edge (depsOf dependencies)) k →
        ∃ c ∈ cycles, ∀ u ∈ c, SameComponent (Edge (depsOf dependencies)) k u := by
  obtain ⟨s, done, hs, hidle, hseen, -⟩ := Search.Idle.visitAll (fun _ _ => mem_mentioned) keys
    (fun _ h => h) (Search.idle_init (depsOf dependencies) keys)
  refine ⟨s.cycles, by rw [findCycles, hs]; rfl, hidle.inv.real, fun k hk => ?_⟩
  refine hidle.inv.finished.reports hidle.inv.real ?_ hk
  obtain ⟨b, hb, -⟩ := Relation.TransGen.head'_iff.mp hk
  have hkey : k ∈ keys := hsrc k b hb
  -- nothing is gray between roots, so a type that is not white is finished
  rw [← hidle.inv.black]
  cases hc : colorOf s.colors k with
  | white => exact absurd hc (hseen k hkey)
  | gray =>
    have := (hidle.inv.gray k).mp hc
    rw [Search.nodes, hidle.empty] at this
    exact absurd this (by simp)
  | black => rfl

end Di
end StanoPlatform
