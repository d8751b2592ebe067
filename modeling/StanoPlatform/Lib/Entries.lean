import Mathlib.Data.List.Forall2
import StanoPlatform.Lib.Ascii

/-!
# `Lib/Entries.lean` — the entries of a text

Entries stand between separators, with blanks around them or not; where there is nothing but
blanks there is no entry. What is read is fit to be written (`isEntry_of_mem`), and is read back
however it is written (`entries_intercalate`). Texts written one after the other have the entries
of both (`entries_append`).
-/

set_option autoImplicit false

namespace StanoPlatform
namespace Lib

variable {α : Type} {blank : α → Bool}

theorem trimBlank_reverse_head? (l : List α) (x : α)
    (h : (trimBlank blank l).getLast? = some x) : blank x = false := by
  rw [trimBlank, List.getLast?_reverse] at h
  have hhead := List.head?_dropWhile_not blank (l.dropWhile blank).reverse
  rw [h] at hhead
  simpa using hhead

/-- Blanks around it are trimmed off. -/
theorem trimBlank_padded {before l after : List α} (hbefore : before.all blank = true)
    (hafter : after.all blank = true) (hhead : ∀ x, l.head? = some x → blank x = false)
    (hlast : ∀ x, l.getLast? = some x → blank x = false) (hne : l ≠ []) :
    trimBlank blank (before ++ l ++ after) = l := by
  have hskip : ∀ pad k : List α, pad.all blank = true → (pad ++ k).dropWhile blank =
      k.dropWhile blank := fun pad k hpad => by
    rw [List.dropWhile_append, List.dropWhile_eq_nil_iff.mpr (List.all_eq_true.mp hpad)]
    rfl
  have hstay : ∀ k rest : List α, k ≠ [] → (∀ x, k.head? = some x → blank x = false) →
      (k ++ rest).dropWhile blank = k ++ rest := fun k rest hk hkhead => by
    obtain ⟨x, k, rfl⟩ := List.exists_cons_of_ne_nil hk
    rw [List.cons_append, List.dropWhile_cons, hkhead x rfl]
    rfl
  have hreverse : ∀ x, l.reverse.head? = some x → blank x = false := fun x hx =>
    hlast x (by rwa [List.head?_reverse] at hx)
  rw [trimBlank, List.append_assoc, hskip before _ hbefore, hstay l after hne hhead,
    List.reverse_append, hskip after.reverse _ (by rwa [List.all_reverse]),
    ← List.append_nil l.reverse, hstay l.reverse [] (by simpa using hne) hreverse]
  simp

variable [DecidableEq α] (blank) (sep : α)

def entries (text : List α) : List (List α) :=
  ((text.splitOn sep).map (trimBlank blank)).filter (· ≠ [])

/-- It can be written as it is. -/
structure IsEntry (e : List α) : Prop where
  ne_nil : e ≠ []
  sep_notMem : sep ∉ e
  head : ∀ x, e.head? = some x → blank x = false
  last : ∀ x, e.getLast? = some x → blank x = false

/-- It is written with blanks around it. -/
def Padded (e piece : List α) : Prop :=
  ∃ before after, piece = before ++ e ++ after ∧ before.all blank = true ∧ sep ∉ before ∧
    after.all blank = true ∧ sep ∉ after

variable {blank sep} {e text : List α}

theorem isEntry_of_mem (h : e ∈ entries blank sep text) : IsEntry blank sep e := by
  obtain ⟨htrim, hne⟩ := List.mem_filter.mp h
  obtain ⟨piece, hpiece, rfl⟩ := List.mem_map.mp htrim
  refine ⟨of_decide_eq_true hne, fun hsep => ?_, fun x hx => ?_, trimBlank_reverse_head? piece⟩
  · exact (mem_of_mem_splitOn hpiece (mem_of_mem_trimBlank hsep)).2 rfl
  · obtain ⟨rest, hrest⟩ := List.head?_eq_some_iff.mp hx
    exact not_blank_of_trimBlank hrest

theorem entries_append (l r : List α) :
    entries blank sep (l ++ sep :: r) = entries blank sep l ++ entries blank sep r := by
  rw [entries, List.splitOn_append_cons_self, List.map_append, List.filter_append]
  rfl

theorem entries_padded {piece : List α} (he : IsEntry blank sep e)
    (hpiece : Padded blank sep e piece) : entries blank sep piece = [e] := by
  obtain ⟨before, after, rfl, hbefore, hsep, hafter, hsep'⟩ := hpiece
  have hnone : sep ∉ before ++ e ++ after := by
    simpa [hsep, hsep'] using he.sep_notMem
  rw [entries, List.splitOn_eq_singleton hnone, List.map_singleton,
    trimBlank_padded hbefore hafter he.head he.last he.ne_nil]
  simp [he.ne_nil]

/-- **What is written is read.** -/
theorem entries_intercalate {es pieces : List (List α)} (hes : ∀ e ∈ es, IsEntry blank sep e)
    (hpieces : List.Forall₂ (Padded blank sep) es pieces) :
    entries blank sep ([sep].intercalate pieces) = es := by
  induction hpieces with
  | nil => rfl
  | @cons e piece es pieces hpiece hrest ih =>
    have hone := entries_padded (hes e List.mem_cons_self) hpiece
    have hothers := ih fun e he => hes e (List.mem_cons_of_mem _ he)
    cases hrest with
    | nil =>
      rw [List.intercalate_singleton]
      exact hone
    | cons h hrest =>
      rw [List.intercalate_cons_cons, List.append_assoc, List.singleton_append, entries_append,
        hone, hothers]
      rfl

end Lib
end StanoPlatform
