import Mathlib.Data.List.Basic
import Mathlib.Data.List.DropRight

/-!
# `Lib/Ascii.lean` — bytes that are text as they stand

UTF-8 leaves ASCII alone: below 128 a byte is its character, and a text is its bytes. So a parser
of text that was checked to be ASCII is a parser of bytes, step by step: splitting and trimming
commute with reading the bytes as characters.
-/

set_option autoImplicit false

namespace StanoPlatform
namespace Lib

def asChar (b : UInt8) : Char := Char.ofNat b.toNat

def utf8 (s : String) : List UInt8 := s.toByteArray.data.toList

/-- What holds of each of the 256 holds of a byte. -/
theorem byte_forall {P : UInt8 → Prop} (h : ∀ n : Fin 256, P (.ofFin n)) (b : UInt8) : P b :=
  h b.toFin

theorem utf8_inj {s t : String} : utf8 s = utf8 t ↔ s = t := by
  rw [← String.toByteArray_inj, utf8, utf8, Array.toList_inj, ByteArray.ext_iff]

theorem asChar_injective : Function.Injective asChar := by
  intro a b h
  have hval : ∀ c : UInt8, (asChar c).toNat = c.toNat := by
    refine byte_forall ?_
    decide +kernel
  exact UInt8.toNat_inj.mp ((hval a).symm.trans ((congrArg Char.toNat h).trans (hval b)))

theorem utf8EncodeChar_asChar (b : UInt8) (h : b < 128) : String.utf8EncodeChar (asChar b) = [b] :=
  byte_forall (P := fun b => b < 128 → String.utf8EncodeChar (asChar b) = [b])
    (by decide +kernel) b h

theorem utf8_ofList {bytes : List UInt8} (h : ∀ b ∈ bytes, b < 128) :
    utf8 (.ofList (bytes.map asChar)) = bytes := by
  rw [utf8, String.toByteArray_ofList, List.utf8Encode, List.toList_data_toByteArray]
  induction bytes with
  | nil => rfl
  | cons b bytes ih =>
    rw [List.map_cons, List.flatMap_cons, utf8EncodeChar_asChar b (h b List.mem_cons_self),
      ih fun b' hb' => h b' (List.mem_cons_of_mem _ hb'), List.singleton_append]

/-- ASCII bytes read as a text iff they are its encoding. -/
theorem map_asChar_eq_toList {bytes : List UInt8} (h : ∀ b ∈ bytes, b < 128) {s : String} :
    bytes.map asChar = s.toList ↔ bytes = utf8 s := by
  rw [← String.ofList_inj, String.ofList_toList, ← utf8_inj, utf8_ofList h]

/-! ## Splitting and trimming -/

theorem splitOn_map {α β : Type} [DecidableEq α] [DecidableEq β] {f : α → β}
    (hf : Function.Injective f) (a : α) (l : List α) :
    (l.map f).splitOn (f a) = (l.splitOn a).map (List.map f) := by
  induction l with
  | nil => rfl
  | cons x l ih =>
    rw [List.map_cons, List.splitOn_cons_eq_if_modifyHead, List.splitOn_cons_eq_if_modifyHead, ih]
    by_cases hx : x = a
    · simp [hx]
    · have hne : f x ≠ f a := fun h => hx (hf h)
      cases l.splitOn a <;> simp [hx, hne]

/-- What is in a piece was in the list, and is no separator. -/
theorem mem_of_mem_splitOn {α : Type} [DecidableEq α] {a x : α} {l piece : List α}
    (hpiece : piece ∈ l.splitOn a) (hx : x ∈ piece) : x ∈ l ∧ x ≠ a := by
  induction l generalizing piece with
  | nil =>
    rw [List.splitOn_nil, List.mem_singleton] at hpiece
    subst hpiece
    cases hx
  | cons y l ih =>
    rw [List.splitOn_cons_eq_if_modifyHead] at hpiece
    obtain ⟨first, rest, hsplit⟩ := List.exists_cons_of_ne_nil (List.splitOn_ne_nil a l)
    have hrest : ∀ p ∈ first :: rest, x ∈ p → x ∈ y :: l ∧ x ≠ a := fun p hp hxp =>
      (ih (hsplit ▸ hp) hxp).imp_left (List.mem_cons_of_mem _)
    rw [hsplit, List.modifyHead_cons] at hpiece
    split at hpiece
    · rcases List.mem_cons.mp hpiece with rfl | hpiece
      · cases hx
      · exact hrest piece hpiece hx
    · rename_i hy
      rcases List.mem_cons.mp hpiece with rfl | hpiece
      · rcases List.mem_cons.mp hx with rfl | hx
        · exact ⟨List.mem_cons_self, by simpa using hy⟩
        · exact hrest first List.mem_cons_self hx
      · exact hrest piece (List.mem_cons_of_mem _ hpiece) hx

/-- Trimming, by what is blank. -/
def trimBlank {α : Type} (blank : α → Bool) (l : List α) : List α :=
  ((l.dropWhile blank).reverse.dropWhile blank).reverse

section

variable {α β : Type} {blank : α → Bool}

theorem dropWhile_congr {p q : α → Bool} {l : List α} (h : ∀ x ∈ l, p x = q x) :
    l.dropWhile p = l.dropWhile q := by
  induction l with
  | nil => rfl
  | cons x l ih =>
    rw [List.dropWhile_cons, List.dropWhile_cons, h x List.mem_cons_self,
      ih fun y hy => h y (List.mem_cons_of_mem _ hy)]

theorem trimBlank_map {f : α → β} {blank' : β → Bool} {l : List α}
    (h : ∀ x ∈ l, blank' (f x) = blank x) :
    trimBlank blank' (l.map f) = (trimBlank blank l).map f := by
  have hdrop : ∀ k : List α, (∀ x ∈ k, x ∈ l) →
      (k.map f).dropWhile blank' = (k.dropWhile blank).map f := fun k hk => by
    rw [List.dropWhile_map]
    exact congrArg _ (dropWhile_congr fun x hx => h x (hk x hx))
  rw [trimBlank, trimBlank, hdrop l fun _ hx => hx, ← List.map_reverse, hdrop, List.map_reverse]
  exact fun x hx => (List.dropWhile_sublist _).subset (List.mem_reverse.mp hx)

theorem trimBlank_isPrefix_dropWhile (blank : α → Bool) (l : List α) :
    trimBlank blank l <+: l.dropWhile blank := by
  have hsuffix := List.dropWhile_suffix blank (l := (l.dropWhile blank).reverse)
  simpa [trimBlank] using List.reverse_prefix.mpr hsuffix

theorem mem_of_mem_trimBlank {l : List α} {x : α} (h : x ∈ trimBlank blank l) : x ∈ l :=
  (List.dropWhile_sublist _).subset ((trimBlank_isPrefix_dropWhile blank l).subset h)

/-- What is left starts with something. -/
theorem not_blank_of_trimBlank {l rest : List α} {x : α} (h : trimBlank blank l = x :: rest) :
    blank x = false := by
  obtain ⟨after, hafter⟩ := h ▸ trimBlank_isPrefix_dropWhile blank l
  have hhead := List.head?_dropWhile_not blank l
  rw [← hafter] at hhead
  simpa using hhead

theorem trimBlank_eq_self {l : List α} (hhead : ∀ x, l.head? = some x → blank x = false)
    (hlast : ∀ x, l.getLast? = some x → blank x = false) : trimBlank blank l = l := by
  have hdrop : ∀ k : List α, (∀ x, k.head? = some x → blank x = false) →
      k.dropWhile blank = k := by
    intro k hk
    cases k with
    | nil => rfl
    | cons x k => rw [List.dropWhile_cons, hk x rfl]; rfl
  rw [trimBlank, hdrop l hhead, hdrop, List.reverse_reverse]
  simpa using hlast

end

end Lib
end StanoPlatform
