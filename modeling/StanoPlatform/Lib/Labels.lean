import Mathlib.Data.List.Basic

/-!
# `Lib/Labels.lean` — names made of labels, and how they end

A name such as `www.example.com` is a list of labels with a separator between them. One name is
under another when its last labels are the labels of the other. That is not the same as ending
with the same letters: the letters must start where a label starts.
-/

set_option autoImplicit false

namespace StanoPlatform
namespace Lib

variable {α : Type}

/-- What the end of `l ++ r` is made of. -/
theorem suffix_append_cases {s l r : List α} (h : s <:+ l ++ r) :
    s <:+ r ∨ ∃ t, s = t ++ r ∧ t <:+ l := by
  rcases List.suffix_or_suffix_of_suffix h (List.suffix_append l r) with hs | ⟨t, rfl⟩
  · exact .inl hs
  · obtain ⟨u, hu⟩ := h
    rw [← List.append_assoc, List.append_cancel_right_eq] at hu
    exact .inr ⟨t, rfl, u, hu⟩

/-- What does not have the separator in it ends behind the separator. -/
theorem suffix_of_not_mem {s l r : List α} {sep : α} (h : s <:+ l ++ sep :: r) (hs : sep ∉ s) :
    s <:+ r := by
  rw [List.append_cons] at h
  rcases suffix_append_cases h with hr | ⟨t, rfl, ht⟩
  · exact hr
  · rcases List.suffix_concat_iff.mp ht with rfl | ⟨u, rfl, -⟩
    · exact List.suffix_rfl
    · exact absurd (by simp) hs

variable [DecidableEq α]

/-- The last labels of `name` are the labels of `domain`. -/
def Under (sep : α) (domain name : List α) : Prop := domain.splitOn sep <:+ name.splitOn sep

instance (sep : α) (domain name : List α) : Decidable (Under sep domain name) :=
  inferInstanceAs (Decidable (_ <:+ _))

theorem intercalate_append_splitOn {sep : α} {labels : List (List α)} (hlabels : labels ≠ [])
    (domain : List α) : [sep].intercalate (labels ++ domain.splitOn sep) =
      [sep].intercalate labels ++ sep :: domain := by
  induction labels with
  | nil => exact absurd rfl hlabels
  | cons label labels ih =>
    cases labels with
    | nil =>
      rw [List.singleton_append, List.intercalate_cons_of_ne_nil (List.splitOn_ne_nil _ _),
        List.intercalate_splitOn, List.intercalate_singleton, List.append_assoc,
        List.singleton_append]
    | cons next labels =>
      rw [List.cons_append, List.intercalate_cons_of_ne_nil (by simp), ih (by simp),
        List.intercalate_cons_cons, List.append_assoc, List.append_assoc, List.append_assoc]

/-- **The same, letter by letter**: the name is the domain, or ends with it behind a separator. -/
theorem under_iff {sep : α} {domain name : List α} :
    Under sep domain name ↔ name = domain ∨ sep :: domain <:+ name := by
  constructor
  · rintro ⟨labels, hlabels⟩
    have hname := congrArg ([sep].intercalate ·) hlabels
    simp only [List.intercalate_splitOn] at hname
    cases labels with
    | nil => exact .inl (by rw [← hname, List.nil_append, List.intercalate_splitOn])
    | cons label labels =>
      rw [intercalate_append_splitOn (by simp)] at hname
      exact .inr ⟨_, hname⟩
  · rintro (rfl | ⟨before, rfl⟩)
    · exact List.suffix_rfl
    · rw [Under, List.splitOn_append_cons_self]
      exact List.suffix_append _ _

/-- To end with the same letters is not enough. -/
theorem not_under_append {sep : α} {before : List α} (hne : before ≠ []) (hsep : sep ∉ before)
    (name : List α) : ¬ Under sep name (before ++ name) := by
  rw [under_iff]
  rintro (h | h)
  · exact hne (List.append_left_eq_self.mp h)
  · rcases suffix_append_cases h with hlong | ⟨t, ht, htbefore⟩
    · exact absurd hlong.length_le (by simp)
    · obtain rfl : t = [sep] := List.append_cancel_right ht.symm
      exact hsep (htbefore.subset (List.mem_singleton.mpr rfl))

end Lib
end StanoPlatform
