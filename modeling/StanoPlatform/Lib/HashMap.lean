import Mathlib.Data.Finmap

/-!
# `Lib/HashMap.lean` — a hash map whose iteration order means nothing

A program that keeps its state in a hash map reads it in two ways: by key, and by iterating.
The first is a function of the map; the second is not — the order in which the table yields its
keys depends on a seed, on the insertion history, on the allocator. `Finmap` is exactly the
part that is a function of the map (two maps with the same lookups *are* the same map), and
`Order m` is the other part: **any** enumeration of the keys, each once. A result stated for
every `Order m` is a result about every seed.
-/

set_option autoImplicit false

namespace StanoPlatform
namespace Lib

/-- A `HashMap<K, V>`, up to the order in which it iterates. -/
abbrev HashMap (K V : Type) : Type := Finmap fun _ : K => V

namespace HashMap

variable {K V : Type}

/-- An order in which the map may yield its keys: every key, each once. -/
def Order (m : HashMap K V) : Type := { ks : List K // ks.Nodup ∧ ∀ k, k ∈ ks ↔ k ∈ m }

theorem Order.nodup {m : HashMap K V} (o : Order m) : o.1.Nodup := o.2.1

theorem Order.mem_iff {m : HashMap K V} (o : Order m) {k : K} : k ∈ o.1 ↔ k ∈ m := o.2.2 k

/-- Two maps with the same keys iterate in the same orders. -/
def Order.congr {W : Type} {m : HashMap K V} {m' : HashMap K W} (o : Order m)
    (h : ∀ k, k ∈ m ↔ k ∈ m') : Order m' :=
  ⟨o.1, o.2.1, fun k => (o.2.2 k).trans (h k)⟩

variable [DecidableEq K]

def get (m : HashMap K V) (k : K) : Option V := m.lookup k

def containsKey (m : HashMap K V) (k : K) : Bool := (m.get k).isSome

def len (m : HashMap K V) : Nat := m.keys.card

@[simp] theorem get_empty (k : K) : get (∅ : HashMap K V) k = none := Finmap.lookup_empty k

theorem get_insert (m : HashMap K V) (k k' : K) (v : V) :
    get (m.insert k v) k' = if k' = k then some v else get m k' := by
  unfold get
  by_cases h : k' = k
  · subst h; rw [if_pos rfl, Finmap.lookup_insert]
  · rw [if_neg h, Finmap.lookup_insert_of_ne _ h]

@[simp] theorem get_insert_self (m : HashMap K V) (k : K) (v : V) :
    get (m.insert k v) k = some v := by
  rw [get_insert, if_pos rfl]

theorem get_insert_ne (m : HashMap K V) {k k' : K} (v : V) (h : k' ≠ k) :
    get (m.insert k v) k' = get m k' := by
  rw [get_insert, if_neg h]

theorem get_eq_none_iff {m : HashMap K V} {k : K} : get m k = none ↔ k ∉ m :=
  Finmap.lookup_eq_none

theorem mem_iff_get {m : HashMap K V} {k : K} : k ∈ m ↔ ∃ v, get m k = some v := Finmap.mem_iff

theorem containsKey_iff {m : HashMap K V} {k : K} : m.containsKey k = true ↔ k ∈ m := by
  rw [containsKey, Option.isSome_iff_exists, mem_iff_get]

theorem mem_of_get {m : HashMap K V} {k : K} {v : V} (h : get m k = some v) : k ∈ m :=
  mem_iff_get.mpr ⟨v, h⟩

theorem ext {m m' : HashMap K V} (h : ∀ k, get m k = get m' k) : m = m' := Finmap.ext_lookup h

/-! ## A batch of inserts -/

variable {α : Type} {key : α → K} {val : α → V}

/-- The map after inserting each `key x ↦ val x` in turn. -/
def insertAll (key : α → K) (val : α → V) (m : HashMap K V) (l : List α) : HashMap K V :=
  l.foldl (fun m x => m.insert (key x) (val x)) m

/-- The last of the batch to mention a key decides it. -/
theorem get_insertAll (l : List α) (m : HashMap K V) (k : K) :
    get (insertAll key val m l) k =
      ((l.reverse.find? (key · = k)).map val).or (get m k) := by
  induction l generalizing m with
  | nil => rfl
  | cons x l ih =>
    show get (insertAll key val (m.insert (key x) (val x)) l) k = _
    rw [ih, List.reverse_cons, List.find?_append, get_insert]
    cases l.reverse.find? (key · = k) with
    | some y => rfl
    | none =>
      by_cases hx : key x = k
      · simp [hx]
      · rw [if_neg (Ne.symm hx)]
        simp [hx]

/-- A key that the batch maps to one value only does not depend on the order of the batch. -/
theorem get_insertAll_perm {l l' : List α} (h : l.Perm l') {k : K}
    (hk : ∀ x ∈ l, ∀ y ∈ l, key x = k → key y = k → val x = val y) (m : HashMap K V) :
    get (insertAll key val m l) k = get (insertAll key val m l') k := by
  rw [get_insertAll, get_insertAll]
  have hmem : ∀ x, x ∈ l.reverse ↔ x ∈ l'.reverse := fun x => by
    rw [List.mem_reverse, List.mem_reverse, h.mem_iff]
  cases hx : l.reverse.find? (key · = k) with
  | none =>
    have hy : l'.reverse.find? (key · = k) = none := by
      rw [List.find?_eq_none] at hx ⊢
      exact fun y hy => hx y ((hmem y).mpr hy)
    rw [hy]
  | some x =>
    cases hy : l'.reverse.find? (key · = k) with
    | none =>
      rw [List.find?_eq_none] at hy
      exact absurd (List.find?_some hx) (hy x ((hmem x).mp (List.mem_of_find?_eq_some hx)))
    | some y =>
      have hval : val x = val y := by
        refine hk x ?_ y ?_ (by simpa using List.find?_some hx) (by simpa using List.find?_some hy)
        · exact List.mem_reverse.mp (List.mem_of_find?_eq_some hx)
        · exact List.mem_reverse.mp ((hmem y).mpr (List.mem_of_find?_eq_some hy))
      simp [hval]

theorem mem_insertAll {l : List α} {m : HashMap K V} {k : K} :
    k ∈ insertAll key val m l ↔ k ∈ m ∨ ∃ x ∈ l, key x = k := by
  induction l generalizing m with
  | nil => simp [insertAll]
  | cons x l ih =>
    show k ∈ insertAll key val (m.insert (key x) (val x)) l ↔ _
    rw [ih, Finmap.mem_insert]
    constructor
    · rintro ((rfl | h) | ⟨y, hy, h⟩)
      · exact .inr ⟨x, List.mem_cons_self, rfl⟩
      · exact .inl h
      · exact .inr ⟨y, List.mem_cons_of_mem _ hy, h⟩
    · rintro (h | ⟨y, hy, h⟩)
      · exact .inl (.inr h)
      · rcases List.mem_cons.mp hy with rfl | hy
        · exact .inl (.inl h.symm)
        · exact .inr ⟨y, hy, h⟩

end HashMap

end Lib
end StanoPlatform
