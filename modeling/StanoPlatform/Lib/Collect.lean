import Mathlib.Data.List.Perm.Basic
import StanoPlatform.Lib.Run

/-!
# `Lib/Collect.lean` — one entry after the other, in whatever order

A collection takes entries one by one, and refuses one that does not go with one that is there. If
two entries go together whichever comes first, it does not matter in which order they come: they
are all taken in one order iff they are in another, and the same is collected (`Collects.perm`).
-/

set_option autoImplicit false

namespace StanoPlatform
namespace Lib

variable {σ α : Type}

/-- Which entries are taken, and what is there then. -/
structure Collects (insert : σ → α → Option σ) (start : σ) (Ok : σ → Prop)
    (contents : σ → α → Prop) (Fits : α → Prop) (Goes : α → α → Prop) : Prop where
  ok : Ok start
  empty : ∀ a, ¬ contents start a
  keeps : ∀ s a t, Ok s → insert s a = some t → Ok t
  takes : ∀ s a, Ok s → ((∃ t, insert s a = some t) ↔ Fits a ∧ ∀ b, contents s b → Goes b a)
  adds : ∀ s a t, Ok s → insert s a = some t → ∀ b, contents t b ↔ contents s b ∨ b = a

namespace Collects

variable {insert : σ → α → Option σ} {start s s' : σ} {Ok : σ → Prop} {contents : σ → α → Prop}
  {Fits : α → Prop} {Goes : α → α → Prop} {entries entries' : List α}
  (h : Collects insert start Ok contents Fits Goes)

include h

/-- What is there is what was put there. -/
theorem run_contents (hrun : run insert start entries = some s) :
    Ok s ∧ ∀ a, contents s a ↔ a ∈ entries := by
  refine run_invariant (fun entries s => Ok s ∧ ∀ a, contents s a ↔ a ∈ entries) ⟨h.ok, ?_⟩ ?_
    hrun
  · exact fun a => ⟨fun ha => absurd ha (h.empty a), nofun⟩
  · rintro entries s t a ⟨hok, hcontents⟩ hinsert
    refine ⟨h.keeps s a t hok hinsert, fun b => ?_⟩
    rw [h.adds s a t hok hinsert, hcontents, List.mem_append, List.mem_singleton]

/-- **What goes together is collected.** By induction from the last one: it comes in iff it fits
those that are there, and these are the others. -/
theorem run_iff : (∃ s, run insert start entries = some s) ↔
    (∀ a ∈ entries, Fits a) ∧ entries.Pairwise Goes := by
  induction entries using List.reverseRecOn with
  | nil => exact ⟨fun _ => ⟨nofun, .nil⟩, fun _ => ⟨start, rfl⟩⟩
  | append_singleton entries a ih =>
    rw [run_snoc, List.pairwise_append]
    simp only [List.mem_append, List.mem_singleton, List.pairwise_singleton, true_and]
    constructor
    · rintro ⟨t, ht⟩
      obtain ⟨s, hs, hinsert⟩ := Option.bind_eq_some_iff.mp ht
      obtain ⟨hok, hcontents⟩ := h.run_contents hs
      obtain ⟨hfits, hgoes⟩ := (h.takes s a hok).mp ⟨t, hinsert⟩
      obtain ⟨hall, hpairwise⟩ := ih.mp ⟨s, hs⟩
      refine ⟨?_, hpairwise, ?_⟩
      · rintro b (hb | rfl)
        · exact hall b hb
        · exact hfits
      · rintro b hb _ rfl
        exact hgoes b ((hcontents b).mpr hb)
    · rintro ⟨hfits, hpairwise, hgoes⟩
      obtain ⟨s, hs⟩ := ih.mpr ⟨fun b hb => hfits b (.inl hb), hpairwise⟩
      obtain ⟨hok, hcontents⟩ := h.run_contents hs
      obtain ⟨t, ht⟩ := (h.takes s a hok).mpr
        ⟨hfits a (.inr rfl), fun b hb => hgoes b ((hcontents b).mp hb) a rfl⟩
      exact ⟨t, by rw [hs, Option.bind_some, ht]⟩

/-- **The order does not matter.** -/
theorem perm (hsymm : ∀ a b, Goes a b → Goes b a) (hperm : entries.Perm entries')
    (hrun : run insert start entries = some s) :
    ∃ s', run insert start entries' = some s' ∧ ∀ a, contents s' a ↔ contents s a := by
  obtain ⟨hfits, hpairwise⟩ := h.run_iff.mp ⟨s, hrun⟩
  have hpairwise' : entries'.Pairwise Goes :=
    (hperm.pairwise_iff fun {a b} => hsymm a b).mp hpairwise
  obtain ⟨s', hs'⟩ := h.run_iff.mpr ⟨fun a ha => hfits a (hperm.mem_iff.mpr ha), hpairwise'⟩
  refine ⟨s', hs', fun a => ?_⟩
  rw [(h.run_contents hs').2, (h.run_contents hrun).2, hperm.mem_iff]

end Collects

end Lib
end StanoPlatform
