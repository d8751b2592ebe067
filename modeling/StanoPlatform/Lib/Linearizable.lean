import Mathlib.Data.List.Nodup

/-!
# `Lib/Linearizable.lean` — calls that overlap, and calls one after another

What the clients of a shared object see is a history: calls invoked, calls responded to. It is
linearizable if the calls can be put in one row — legal by the specification of a single call, and
never the one before the other where the clients saw the other end first — that explains the
responses. What a client may rely on is read off such a row: where one call was over before another
began, the other finds what the one left, or what somebody has written since (`fresh`).

Not every response tells how a call ended. One that does not settle its call (an error, a time that
is up) explains nothing and ends nothing: such a call may be in the row or not, and in it as late as
it likes, like one that nobody has responded to.
-/

set_option autoImplicit false

namespace StanoPlatform
namespace Lib

variable {ι Call ρ S : Type}

inductive Observed (ι Call ρ : Type) where
  | invoked (id : ι) (call : Call)
  | responded (id : ι) (answer : ρ)

structure Served (ι Call ρ : Type) where
  id : ι
  call : Call
  answer : ρ

/-- Calls one after another, each legal by its specification: the state before, the call, the
answer, the state after. -/
def Legal (spec : S → Call → ρ → S → Prop) : S → List (Served ι Call ρ) → S → Prop
  | s, [], t => s = t
  | s, d :: ds, t => ∃ u, spec s d.call d.answer u ∧ Legal spec u ds t

/-- A row of calls that explains a history, as far as responses settle their calls. -/
structure Linearization (settles : Call → ρ → Prop) (spec : S → Call → ρ → S → Prop) (init : S)
    (history : List (Observed ι Call ρ)) (served : List (Served ι Call ρ)) (final : S) : Prop where
  legal : Legal spec init served final
  once : (served.map Served.id).Nodup
  named : ∀ id call call', .invoked id call ∈ history → .invoked id call' ∈ history → call = call'
  invoked : ∀ d ∈ served, .invoked d.id d.call ∈ history
  responded : ∀ id answer, .responded id answer ∈ history →
    ∃ call, .invoked id call ∈ history ∧ (settles call answer → ⟨id, call, answer⟩ ∈ served)
  realTime : ∀ d ∈ served, ∀ e ∈ served, ∀ answer, settles d.call answer →
    [.responded d.id answer, .invoked e.id e.call].Sublist history → [d, e].Sublist served

theorem legal_append {spec : S → Call → ρ → S → Prop} {ds es : List (Served ι Call ρ)} {s t : S} :
    Legal spec s (ds ++ es) t ↔ ∃ u, Legal spec s ds u ∧ Legal spec u es t := by
  induction ds generalizing s with
  | nil => simp [Legal]
  | cons d ds ih =>
    simp only [List.cons_append, Legal, ih]
    constructor
    · rintro ⟨u, hstep, v, hds, hes⟩
      exact ⟨v, ⟨u, hstep, hds⟩, hes⟩
    · rintro ⟨v, ⟨u, hstep, hds⟩, hes⟩
      exact ⟨u, hstep, v, hds, hes⟩

theorem Legal.snoc {spec : S → Call → ρ → S → Prop} {ds : List (Served ι Call ρ)} {s t u : S}
    {d : Served ι Call ρ} (h : Legal spec s ds t) (hstep : spec t d.call d.answer u) :
    Legal spec s (ds ++ [d]) u :=
  legal_append.mpr ⟨t, h, u, hstep, rfl⟩

/-- What a state shows of a place where every call that changes it writes something, after a row of
calls: what it showed before, or what one of them wrote. -/
theorem Legal.written {V : Type} {spec : S → Call → ρ → S → Prop} {shows : S → V}
    {writes : Call → V → Prop}
    (hstep : ∀ s call r s', spec s call r s' →
      shows s' = shows s ∨ ∃ v, writes call v ∧ shows s' = v)
    {ds : List (Served ι Call ρ)} {s t : S} (h : Legal spec s ds t) :
    shows t = shows s ∨ ∃ d ∈ ds, ∃ v, writes d.call v ∧ shows t = v := by
  induction ds generalizing s with
  | nil => exact .inl (congrArg shows h.symm)
  | cons d ds ih =>
    obtain ⟨u, hd, hds⟩ := h
    rcases ih hds with hkept | ⟨e, he, v, hwrites, hshows⟩
    · rcases hstep _ _ _ _ hd with hsame | ⟨v, hwrites, hv⟩
      · exact .inl (hkept.trans hsame)
      · exact .inr ⟨d, List.mem_cons_self, v, hwrites, hkept.trans hv⟩
    · exact .inr ⟨e, List.mem_cons_of_mem _ he, v, hwrites, hshows⟩

theorem not_sublist_swap {α : Type} {x y : α} {l : List α} (hnodup : l.Nodup)
    (h : [x, y].Sublist l) : ¬ [y, x].Sublist l := by
  intro hswap
  obtain ⟨front, back, rfl, hx, hy⟩ := List.cons_sublist_iff.mp h
  have hdisjoint := List.disjoint_of_nodup_append hnodup
  have hy : y ∈ back := List.singleton_sublist.mp hy
  obtain ⟨first, second, heq, hfirst, hsecond⟩ := List.sublist_append_iff.mp hswap
  rcases first with _ | ⟨z, first⟩
  · have hsecond' : second = [y, x] := heq.symm
    exact hdisjoint hx (hsecond.subset (by simp [hsecond']))
  · have hz : z = y := (List.cons.inj heq).1.symm
    exact hdisjoint (hfirst.subset (hz ▸ List.mem_cons_self)) hy

namespace Linearization

variable {settles : Call → ρ → Prop} {spec : S → Call → ρ → S → Prop} {init s s' : S}
  {history : List (Observed ι Call ρ)} {served : List (Served ι Call ρ)} {id : ι} {call : Call}
  {r : ρ}

theorem pair_sublist_concat {α : Type} {x y z : α} {l : List α} (h : [x, y].Sublist (l ++ [z])) :
    [x, y].Sublist l ∨ x ∈ l ∧ y = z := by
  rw [List.sublist_append_iff] at h
  obtain ⟨front, back, heq, hfront, hback⟩ := h
  rcases List.sublist_singleton.mp hback with rfl | rfl
  · rw [List.append_nil] at heq
    exact .inl (heq ▸ hfront)
  · have heq : [x] ++ [y] = front ++ [z] := heq
    obtain ⟨rfl, hyz⟩ := List.append_inj' heq rfl
    exact .inr ⟨List.singleton_sublist.mp hfront, List.singleton_inj.mp hyz⟩

/-- A call takes effect last of all so far, if no response has settled it. -/
theorem snoc (h : Linearization settles spec init history served s)
    (hnew : ∀ d ∈ served, d.id ≠ id) (hinvoked : .invoked id call ∈ history)
    (hopen : ∀ r, .responded id r ∈ history → ¬ settles call r) (hstep : spec s call r s') :
    Linearization settles spec init history (served ++ [⟨id, call, r⟩]) s' where
  legal := h.legal.snoc hstep
  once := by
    rw [List.map_append, List.nodup_append]
    refine ⟨h.once, List.nodup_singleton _, ?_⟩
    intro a ha b hb heq
    obtain ⟨d, hd, rfl⟩ := List.mem_map.mp ha
    rw [List.map_singleton, List.mem_singleton] at hb
    exact hnew d hd (heq.trans hb)
  named := h.named
  invoked d hd := by
    rcases List.mem_append.mp hd with hd | hd
    · exact h.invoked d hd
    · rw [List.mem_singleton.mp hd]
      exact hinvoked
  responded id' answer hmem := by
    obtain ⟨call', hcall', hserved⟩ := h.responded id' answer hmem
    exact ⟨call', hcall', fun hsettles => List.mem_append_left _ (hserved hsettles)⟩
  realTime d hd e he answer hsettles hsub := by
    rcases List.mem_append.mp hd with hd | hd
    · rcases List.mem_append.mp he with he | he
      · exact (h.realTime d hd e he answer hsettles hsub).trans (List.sublist_append_left _ _)
      · rw [List.mem_singleton.mp he]
        exact (List.singleton_sublist.mpr hd).append (List.Sublist.refl [_])
    -- the new one was not settled, so nothing has to come after it
    · rw [List.mem_singleton.mp hd] at hsettles hsub
      exact absurd hsettles (hopen answer (hsub.subset List.mem_cons_self))

/-- Who has just begun is not in the row. -/
theorem invoke (h : Linearization settles spec init history served s)
    (hnew : ∀ call, .invoked id call ∉ history) (call : Call) :
    Linearization settles spec init (history ++ [.invoked id call]) served s where
  legal := h.legal
  once := h.once
  named id' c c' hc hc' := by
    rcases List.mem_append.mp hc with hc | hc <;> rcases List.mem_append.mp hc' with hc' | hc'
    · exact h.named id' c c' hc hc'
    · cases List.mem_singleton.mp hc'
      exact absurd hc (hnew c)
    · cases List.mem_singleton.mp hc
      exact absurd hc' (hnew c')
    · cases List.mem_singleton.mp hc
      cases List.mem_singleton.mp hc'
      rfl
  invoked d hd := List.mem_append_left _ (h.invoked d hd)
  responded id' answer hmem := by
    obtain ⟨call', hcall', hserved⟩ := h.responded id' answer (by simpa using hmem)
    exact ⟨call', List.mem_append_left _ hcall', hserved⟩
  realTime d hd e he answer hsettles hsub := by
    rcases pair_sublist_concat hsub with hsub | ⟨-, heq⟩
    · exact h.realTime d hd e he answer hsettles hsub
    · cases heq
      exact absurd (h.invoked e he) (hnew e.call)

theorem respond (h : Linearization settles spec init history served s)
    (hinvoked : .invoked id call ∈ history)
    (hserved : settles call r → ⟨id, call, r⟩ ∈ served) :
    Linearization settles spec init (history ++ [.responded id r]) served s where
  legal := h.legal
  once := h.once
  named id' c c' hc hc' := h.named id' c c' (by simpa using hc) (by simpa using hc')
  invoked d hd := List.mem_append_left _ (h.invoked d hd)
  responded id' answer hmem := by
    rcases List.mem_append.mp hmem with hmem | hmem
    · obtain ⟨call', hcall', hserved'⟩ := h.responded id' answer hmem
      exact ⟨call', List.mem_append_left _ hcall', hserved'⟩
    · cases List.mem_singleton.mp hmem
      exact ⟨call, List.mem_append_left _ hinvoked, hserved⟩
  realTime d hd e he answer hsettles hsub := by
    rcases pair_sublist_concat hsub with hsub | ⟨-, heq⟩
    · exact h.realTime d hd e he answer hsettles hsub
    · cases heq

/-- A response that settles a call is its answer in the row. -/
theorem served_of_responded (h : Linearization settles spec init history served s)
    (hinvoked : .invoked id call ∈ history) (hresponded : .responded id r ∈ history)
    (hsettles : settles call r) : ⟨id, call, r⟩ ∈ served := by
  obtain ⟨call', hcall', hserved⟩ := h.responded id r hresponded
  cases h.named _ _ _ hinvoked hcall'
  exact hserved hsettles

/-- **Reads are fresh.** Where a response settled a call before another was invoked, the other one
finds what the first one left, or what some third call has written since: one that was not settled
before the first one was invoked, and was invoked before the other one was responded to. -/
theorem fresh {V : Type} {shows : S → V} {writes : Call → V → Prop}
    (h : Linearization settles spec init history served s)
    (hstep : ∀ s call r s', spec s call r s' →
      shows s' = shows s ∨ ∃ v, writes call v ∧ shows s' = v)
    {i j : ι} {first second : Call} {a b : ρ} (hfirst : .invoked i first ∈ history)
    (hsettles : settles first a)
    (hbefore : [.responded i a, .invoked j second].Sublist history)
    (hsecond : .responded j b ∈ history) (hsettles' : settles second b) :
    ∃ before left found after, spec before first a left ∧ spec found second b after ∧
      (shows found = shows left ∨ ∃ k third v, .invoked k third ∈ history ∧ writes third v ∧
        shows found = v ∧
        (∀ c, settles third c → ¬ [.responded k c, .invoked i first].Sublist history) ∧
        ¬ [.responded j b, .invoked k third].Sublist history) := by
  have hnodup : served.Nodup := h.once.of_map _
  have hmem₁ : ⟨i, first, a⟩ ∈ served :=
    h.served_of_responded hfirst (hbefore.subset List.mem_cons_self) hsettles
  have hmem₂ : ⟨j, second, b⟩ ∈ served :=
    h.served_of_responded (hbefore.subset (by simp)) hsecond hsettles'
  -- the first comes before the second in the row; whatever changed the value stands between
  have horder := h.realTime _ hmem₁ _ hmem₂ a hsettles hbefore
  obtain ⟨front, rest, hserved, hfront, hrest⟩ := List.cons_sublist_iff.mp horder
  obtain ⟨before, between, rfl⟩ := List.append_of_mem hfront
  obtain ⟨between', after, rfl⟩ := List.append_of_mem (List.singleton_sublist.mp hrest)
  subst hserved
  have hlegal := h.legal
  rw [List.append_assoc, List.cons_append, ← List.append_assoc between, legal_append] at hlegal
  obtain ⟨s₁, -, left, hspec, hlegal⟩ := hlegal
  obtain ⟨found, hbetween, s₂, hspec', -⟩ := legal_append.mp hlegal
  refine ⟨s₁, left, found, s₂, hspec, hspec', ?_⟩
  refine (hbetween.written hstep).imp_right ?_
  rintro ⟨third, hthird, v, hwrites, hshows⟩
  rw [List.mem_append] at hthird
  have hmem₃ : third ∈
      (before ++ ⟨i, first, a⟩ :: between) ++ (between' ++ ⟨j, second, b⟩ :: after) := by
    rcases hthird with h | h <;> simp [h]
  have hafter : [⟨i, first, a⟩, third].Sublist
      ((before ++ ⟨i, first, a⟩ :: between) ++ (between' ++ ⟨j, second, b⟩ :: after)) := by
    have hsub : [third].Sublist (between ++ (between' ++ ⟨j, second, b⟩ :: after)) :=
      List.singleton_sublist.mpr (by rcases hthird with h | h <;> simp [h])
    simpa using (List.nil_sublist before).append (hsub.cons_cons ⟨i, first, a⟩)
  have hbefore' : [third, ⟨j, second, b⟩].Sublist
      ((before ++ ⟨i, first, a⟩ :: between) ++ (between' ++ ⟨j, second, b⟩ :: after)) := by
    have hsub : [third].Sublist (before ++ ⟨i, first, a⟩ :: between ++ between') :=
      List.singleton_sublist.mpr (by rcases hthird with h | h <;> simp [h])
    have hsub' : [⟨j, second, b⟩].Sublist (⟨j, second, b⟩ :: after) :=
      List.singleton_sublist.mpr List.mem_cons_self
    simpa using hsub.append hsub'
  refine ⟨third.id, third.call, v, h.invoked third hmem₃, hwrites, hshows, fun c hover hsub => ?_,
    fun hlate => ?_⟩
  · exact not_sublist_swap hnodup hafter (h.realTime _ hmem₃ _ hmem₁ c hover hsub)
  · exact not_sublist_swap hnodup hbefore' (h.realTime _ hmem₂ _ hmem₃ b hsettles' hlate)

end Linearization

end Lib
end StanoPlatform
