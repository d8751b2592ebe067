import Mathlib.Data.List.Basic

/-!
# `Lib/Utf8.lean` — a text and the offsets of its bytes

A `str` is indexed by bytes and made of characters. A slice is taken at an offset that must be a
boundary between two characters; elsewhere it panics, which is `none` here. A byte below 128 is
a whole character, so an offset at which such a byte was seen is a boundary, and so is the one
after it. That is all a scanner of ASCII punctuation needs (`byte_cases`).
-/

set_option autoImplicit false

namespace StanoPlatform
namespace Lib

/-- `text.as_bytes()` -/
def bytesOf (text : List Char) : List UInt8 := text.flatMap String.utf8EncodeChar

/-- `text.len()` -/
def byteLen (text : List Char) : Nat := (bytesOf text).length

/-- `&text[at..]` -/
def sliceFrom : List Char → Nat → Option (List Char)
  | text, 0 => some text
  | [], _ + 1 => none
  | c :: text, n + 1 => if c.utf8Size ≤ n + 1 then sliceFrom text (n + 1 - c.utf8Size) else none

/-- `&text[..to]` -/
def sliceTo : List Char → Nat → Option (List Char)
  | _, 0 => some []
  | [], _ + 1 => none
  | c :: text, n + 1 =>
    if c.utf8Size ≤ n + 1 then (sliceTo text (n + 1 - c.utf8Size)).map (c :: ·) else none

/-- `&text[at..to]` -/
def slice (text : List Char) (start stop : Nat) : Option (List Char) :=
  if start ≤ stop then (sliceFrom text start).bind fun rest => sliceTo rest (stop - start) else none

/-- `text.find(c)`: the offset of the first one. -/
def findChar (c : Char) (text : List Char) : Option Nat :=
  if c ∈ text then some (byteLen (text.takeWhile (· ≠ c))) else none

/-- The characters that start at an offset or behind it. -/
def charsFrom : List Char → Nat → List Char
  | text, 0 => text
  | [], _ + 1 => []
  | c :: text, n + 1 => charsFrom text (n + 1 - c.utf8Size)

theorem bytesOf_cons (c : Char) (text : List Char) :
    bytesOf (c :: text) = String.utf8EncodeChar c ++ bytesOf text := rfl

theorem byteLen_cons (c : Char) (text : List Char) :
    byteLen (c :: text) = c.utf8Size + byteLen text := by
  rw [byteLen, bytesOf_cons, List.length_append, String.length_utf8EncodeChar, byteLen]

theorem byteLen_append (a b : List Char) : byteLen (a ++ b) = byteLen a + byteLen b := by
  rw [byteLen, bytesOf, List.flatMap_append, List.length_append, byteLen, byteLen, bytesOf, bytesOf]

theorem sliceFrom_cons {c : Char} {text : List Char} {n : Nat} (h : c.utf8Size ≤ n) :
    sliceFrom (c :: text) n = sliceFrom text (n - c.utf8Size) := by
  have hpos := c.utf8Size_pos
  cases n with
  | zero => omega
  | succ n => rw [sliceFrom, if_pos h]

theorem sliceTo_cons {c : Char} {text : List Char} {n : Nat} (h : c.utf8Size ≤ n) :
    sliceTo (c :: text) n = (sliceTo text (n - c.utf8Size)).map (c :: ·) := by
  have hpos := c.utf8Size_pos
  cases n with
  | zero => omega
  | succ n => rw [sliceTo, if_pos h]

theorem charsFrom_cons {c : Char} {text : List Char} {n : Nat} (h : 0 < n) :
    charsFrom (c :: text) n = charsFrom text (n - c.utf8Size) := by
  cases n with
  | zero => omega
  | succ n => rw [charsFrom]

/-! ## At a boundary -/

theorem sliceFrom_append (a b : List Char) : sliceFrom (a ++ b) (byteLen a) = some b := by
  induction a with
  | nil => rw [List.nil_append, byteLen, bytesOf, List.flatMap_nil, List.length_nil, sliceFrom]
  | cons c a ih =>
    rw [List.cons_append, byteLen_cons, sliceFrom_cons (Nat.le_add_right _ _),
      Nat.add_sub_cancel_left,
      ih]

theorem sliceTo_append (a b : List Char) : sliceTo (a ++ b) (byteLen a) = some a := by
  induction a with
  | nil => rw [List.nil_append, byteLen, bytesOf, List.flatMap_nil, List.length_nil, sliceTo]
  | cons c a ih =>
    rw [List.cons_append, byteLen_cons, sliceTo_cons (Nat.le_add_right _ _),
      Nat.add_sub_cancel_left,
      ih, Option.map_some]

theorem slice_append (a b c : List Char) :
    slice (a ++ (b ++ c)) (byteLen a) (byteLen a + byteLen b) = some b := by
  rw [slice, if_pos (Nat.le_add_right _ _), sliceFrom_append, Option.bind_some,
    Nat.add_sub_cancel_left, sliceTo_append]

theorem charsFrom_append (a b : List Char) : charsFrom (a ++ b) (byteLen a) = b := by
  induction a with
  | nil => rw [List.nil_append, byteLen, bytesOf, List.flatMap_nil, List.length_nil, charsFrom]
  | cons c a ih =>
    have hpos := c.utf8Size_pos
    rw [List.cons_append, byteLen_cons, charsFrom_cons (by omega), Nat.add_sub_cancel_left, ih]

/-- One byte further, and the character is behind, however many bytes it has. -/
theorem charsFrom_succ (a : List Char) (c : Char) (b : List Char) :
    charsFrom (a ++ c :: b) (byteLen a + 1) = b := by
  induction a with
  | nil =>
    have hpos := c.utf8Size_pos
    rw [List.nil_append, byteLen, bytesOf, List.flatMap_nil, List.length_nil,
      charsFrom_cons (by omega), Nat.sub_eq_zero_of_le (by omega), charsFrom]
  | cons d a ih =>
    rw [List.cons_append, byteLen_cons, charsFrom_cons (by omega), Nat.add_assoc,
      Nat.add_sub_cancel_left, ih]

theorem charsFrom_of_le {text : List Char} {n : Nat} (h : byteLen text ≤ n) :
    charsFrom text n = [] := by
  induction text generalizing n with
  | nil => cases n <;> rw [charsFrom]
  | cons c text ih =>
    have hpos := c.utf8Size_pos
    rw [byteLen_cons] at h
    rw [charsFrom_cons (by omega), ih (by omega)]

/-! ## At any byte -/

theorem le_ofNat {n : Nat} (h : 128 ≤ n) (hlt : n < 256) : 128 ≤ UInt8.ofNat n := by
  rw [UInt8.le_iff_toNat_le, UInt8.toNat_ofNat', Nat.mod_eq_of_lt hlt]
  exact h

/-- The encoding of a character is the character, or has no byte that is one. -/
theorem utf8EncodeChar_cases (c : Char) :
    (c.toNat < 128 ∧ String.utf8EncodeChar c = [.ofNat c.toNat]) ∨
      ∀ b ∈ String.utf8EncodeChar c, 128 ≤ b := by
  have hval : c.val.toNat = c.toNat := rfl
  rw [String.utf8EncodeChar]
  simp only [hval]
  split
  · exact .inl ⟨by omega, rfl⟩
  · refine .inr fun b hb => ?_
    split at hb
    · simp only [List.mem_cons, List.not_mem_nil, or_false] at hb
      rcases hb with rfl | rfl <;>
        exact le_ofNat (by omega) (by omega)
    · split at hb
      · simp only [List.mem_cons, List.not_mem_nil, or_false] at hb
        rcases hb with rfl | rfl | rfl <;>
          exact le_ofNat (by omega) (by omega)
      · simp only [List.mem_cons, List.not_mem_nil, or_false] at hb
        rcases hb with rfl | rfl | rfl | rfl <;>
          exact le_ofNat (by omega) (by omega)

/-- **The byte at an offset** starts a character, or continues one. -/
theorem byte_cases {text : List Char} {i : Nat} {b : UInt8} (h : (bytesOf text)[i]? = some b) :
    (∃ before c after, text = before ++ c :: after ∧ byteLen before = i ∧
      b ∈ (String.utf8EncodeChar c).head?) ∨
    (128 ≤ b ∧ charsFrom text (i + 1) = charsFrom text i) := by
  induction text generalizing i with
  | nil => simp [bytesOf] at h
  | cons c text ih =>
    have hpos := c.utf8Size_pos
    have hlen := String.length_utf8EncodeChar c
    rw [bytesOf_cons] at h
    rcases Nat.eq_zero_or_pos i with rfl | hi
    · rw [List.getElem?_append_left (by omega)] at h
      exact .inl ⟨[], c, text, rfl, rfl, by rwa [List.head?_eq_getElem?]⟩
    rcases Nat.lt_or_ge i c.utf8Size with hlt | hge
    · rw [List.getElem?_append_left (by omega)] at h
      refine .inr ⟨?_, ?_⟩
      · rcases utf8EncodeChar_cases c with ⟨-, hone⟩ | hbytes
        · rw [hone] at hlen
          simp only [List.length_singleton] at hlen
          omega
        · exact hbytes b (List.mem_of_getElem? h)
      · rw [charsFrom_cons hi, charsFrom_cons (by omega), Nat.sub_eq_zero_of_le (by omega),
          Nat.sub_eq_zero_of_le (by omega)]
    · rw [List.getElem?_append_right (by omega), hlen] at h
      rcases ih h with ⟨before, c', after, rfl, hbefore, hb⟩ | ⟨hb, hsame⟩
      · exact .inl ⟨c :: before, c', after, rfl, by rw [byteLen_cons]; omega, hb⟩
      · refine .inr ⟨hb, ?_⟩
        rw [charsFrom_cons hi, charsFrom_cons (by omega), ← hsame]
        congr 1
        omega

/-- An ASCII byte is a character of its own. -/
theorem eq_of_head_utf8EncodeChar {c d : Char} (hd : d.toNat < 128)
    (h : .ofNat d.toNat ∈ (String.utf8EncodeChar c).head?) : c = d := by
  rcases utf8EncodeChar_cases c with ⟨hc, hone⟩ | hbytes
  · rw [hone] at h
    have hnat := congrArg UInt8.toNat (Option.some.inj h)
    rw [UInt8.toNat_ofNat', UInt8.toNat_ofNat', Nat.mod_eq_of_lt (by omega),
      Nat.mod_eq_of_lt (by omega)] at hnat
    exact Char.toNat_inj.mp hnat
  · have hge := hbytes _ (List.mem_of_mem_head? h)
    rw [UInt8.le_iff_toNat_le, UInt8.toNat_ofNat', Nat.mod_eq_of_lt (by omega)] at hge
    exact absurd hge (Nat.not_le.mpr hd)

theorem findChar_append {c : Char} {a b : List Char} (h : c ∉ a) :
    findChar c (a ++ c :: b) = some (byteLen a) := by
  have htake : (a ++ c :: b).takeWhile (fun x => decide (x ≠ c)) = a := by
    rw [List.takeWhile_append_of_pos fun x hx => by simpa using ne_of_mem_of_not_mem hx h]
    simp
  rw [findChar, if_pos (by simp), htake]

theorem findChar_eq_none {c : Char} {text : List Char} (h : c ∉ text) : findChar c text = none := by
  rw [findChar, if_neg h]

end Lib
end StanoPlatform
