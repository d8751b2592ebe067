import Mathlib.Data.List.Basic

/-!
# `Lib/Pieces.lean` — a list cut at separators that only sometimes separate

`List.splitOn` cuts at every separator. A reader that keeps track of brackets does not: whether it
cuts at an element depends on the state it has read itself into. Two things stay true. Joined by
the separator again, the pieces are the list, whatever the reader does (`intercalate_cutAt`). And
pieces the reader gets through without a cut, ending in the state it began in, are the pieces of
what they are joined to (`cutAt_intercalate`).
-/

set_option autoImplicit false

namespace StanoPlatform
namespace Lib

variable {α σ : Type} (cut : σ → α → Bool) (next : σ → α → σ)

/-- The pieces a reader cuts a list into. -/
def cutAt : σ → List α → List (List α)
  | _, [] => [[]]
  | s, a :: l =>
    if cut s a then [] :: cutAt s l else (cutAt (next s a) l).modifyHead (a :: ·)

/-- The reader gets from `s` to `t` through a piece and does not cut it. -/
inductive Through : σ → List α → σ → Prop
  | nil {s : σ} : Through s [] s
  | cons {s t : σ} {a : α} {l : List α} (h : cut s a = false) (rest : Through (next s a) l t) :
      Through s (a :: l) t

variable {cut next} {s t : σ} {sep : α}

theorem Through.append {u : σ} {l r : List α} (hl : Through cut next s l t)
    (hr : Through cut next t r u) : Through cut next s (l ++ r) u := by
  induction hl with
  | nil => exact hr
  | cons h _ ih => exact .cons h (ih hr)

theorem cutAt_ne_nil (cut : σ → α → Bool) (next : σ → α → σ) (s : σ) (l : List α) :
    cutAt cut next s l ≠ [] := by
  induction l generalizing s with
  | nil => exact List.cons_ne_nil _ _
  | cons a l ih =>
    rw [cutAt]
    split
    · exact List.cons_ne_nil _ _
    · rw [Ne, List.modifyHead_eq_nil_iff]
      exact ih _

theorem modifyHead_append_cutAt {a : α} {l : List α} (current : List α) (h : cut s a = false) :
    (cutAt cut next s (a :: l)).modifyHead (current ++ ·) =
      (cutAt cut next (next s a) l).modifyHead (current ++ [a] ++ ·) := by
  rw [cutAt, if_neg (by simp [h]), List.modifyHead_modifyHead]
  congr 1
  funext piece
  simp

theorem intercalate_modifyHead_cons (a : α) {pieces : List (List α)} (h : pieces ≠ []) :
    [sep].intercalate (pieces.modifyHead (a :: ·)) = a :: [sep].intercalate pieces := by
  obtain ⟨piece, rest, rfl⟩ := List.exists_cons_of_ne_nil h
  rw [List.modifyHead_cons]
  cases rest with
  | nil => rw [List.intercalate_singleton, List.intercalate_singleton]
  | cons next rest => simp [List.intercalate_cons_cons]

/-- **Cut and joined, a list is itself.** -/
theorem intercalate_cutAt (hsep : ∀ s a, cut s a = true → a = sep) (s : σ) (l : List α) :
    [sep].intercalate (cutAt cut next s l) = l := by
  induction l generalizing s with
  | nil => rw [cutAt, List.intercalate_singleton]
  | cons a l ih =>
    rw [cutAt]
    split
    · rename_i hcut
      rw [List.intercalate_cons_of_ne_nil (cutAt_ne_nil _ _ _ _), ih, hsep s a hcut]
      rfl
    · rw [intercalate_modifyHead_cons a (cutAt_ne_nil _ _ _ _), ih]

theorem cutAt_append {piece : List α} (h : Through cut next s piece t) (l : List α) :
    cutAt cut next s (piece ++ l) = (cutAt cut next t l).modifyHead (piece ++ ·) := by
  induction h with
  | @nil s =>
    rw [List.nil_append]
    cases cutAt cut next s l <;> rfl
  | cons hcut _ ih =>
    rw [List.cons_append, cutAt, if_neg (by simp [hcut]), ih, List.modifyHead_modifyHead]
    rfl

/-- **Joined and cut, the pieces are themselves.** -/
theorem cutAt_intercalate (hsep : cut s sep = true) {pieces : List (List α)} (hne : pieces ≠ [])
    (h : ∀ piece ∈ pieces, Through cut next s piece s) :
    cutAt cut next s ([sep].intercalate pieces) = pieces := by
  induction pieces with
  | nil => exact absurd rfl hne
  | cons piece rest ih =>
    have hpiece := h piece List.mem_cons_self
    cases rest with
    | nil =>
      have hcut := cutAt_append hpiece []
      rw [List.append_nil] at hcut
      rw [List.intercalate_singleton, hcut, cutAt, List.modifyHead_cons, List.append_nil]
    | cons more rest =>
      rw [List.intercalate_cons_cons, List.append_assoc, cutAt_append hpiece, List.singleton_append,
        cutAt, if_pos hsep, List.modifyHead_cons, List.append_nil,
        ih (List.cons_ne_nil _ _) fun p hp => h p (List.mem_cons_of_mem _ hp)]

/-- What is never cut at is in a piece, if it is there at all. -/
theorem mem_flatten_cutAt {x : α} (hx : ∀ s, cut s x = false) (s : σ) (l : List α) :
    x ∈ (cutAt cut next s l).flatten ↔ x ∈ l := by
  induction l generalizing s with
  | nil => simp [cutAt]
  | cons a l ih =>
    rw [cutAt]
    split
    · rename_i hcut
      have hne : x ≠ a := by
        rintro rfl
        rw [hx] at hcut
        cases hcut
      rw [List.flatten_cons, List.nil_append, ih, List.mem_cons, or_iff_right hne]
    · obtain ⟨first, rest, hrest⟩ :=
        List.exists_cons_of_ne_nil (cutAt_ne_nil cut next (next s a) l)
      have hl := ih (next s a)
      rw [hrest] at hl ⊢
      rw [List.modifyHead_cons, List.flatten_cons, List.cons_append, List.mem_cons, List.mem_cons,
        ← hl, List.flatten_cons]

end Lib
end StanoPlatform
