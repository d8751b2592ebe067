import StanoPlatform.Lib.Loop
import StanoPlatform.Lib.Utf8

/-!
# `Macros/Placeholders.lean` — the placeholders of a route's path

`path_placeholders` walks a path by bytes and slices it by characters. It is safe for one reason:
it slices only next to a byte that it has seen to be a brace, and a brace is a whole character.

What it computes needs no bytes to say (`placeholders`). The loop keeps the names found so far and
those of the characters ahead of it together what they are of the whole path
(`Scan.body_spec`) — and it moves on by single bytes through a character that is not ASCII, which
changes nothing of what is ahead.

From `path_placeholders` in `stano-route-macros/src/lib.rs`. `str` slices by byte offsets, and
panics off a boundary; both are `Lib/Utf8.lean`.
-/

set_option autoImplicit false

namespace StanoPlatform
namespace Macros

open Lib

structure Scan where
  i : Nat
  names : List (List Char)

namespace Scan

/-- One iteration; `none` where an index or a slice would panic. -/
def body (pathLit : List Char) (s : Scan) : Option Scan := do
  let byte ← (bytesOf pathLit)[s.i]?
  -- `b'{'`
  if byte = 123 then
    let ahead ← sliceFrom pathLit (s.i + 1)
    match findChar '}' ahead with
    | some len =>
      let name ← slice pathLit (s.i + 1) (s.i + 1 + len)
      return { i := s.i + len + 2, names := s.names ++ [name.dropWhile (· = '*')] }
    | none => return { s with i := s.i + 1 }
  else return { s with i := s.i + 1 }

/-- `while i < bytes.len()`. A panic leaves the loop. -/
def step (pathLit : List Char) : Option Scan → Option (Option Scan)
  | none => none
  | some s => if s.i < byteLen pathLit then some (s.body pathLit) else none

def left (pathLit : List Char) : Option Scan → Nat
  | none => 0
  | some s => byteLen pathLit + 1 - s.i

def loop (pathLit : List Char) : Option Scan :=
  whileLoop (left pathLit) (step pathLit) (some ⟨0, []⟩)

end Scan

/-- `path_placeholders`; `none` if it panics. -/
def pathPlaceholders (pathLit : List Char) : Option (List (List Char)) :=
  (Scan.loop pathLit).map (·.names)

/-! ## What it finds -/

/-- The names between an opening brace and the next closing one, stars in front left out. -/
def placeholders : List Char → List (List Char)
  | [] => []
  | c :: rest =>
    if c = '{' ∧ '}' ∈ rest then
      (rest.takeWhile (· ≠ '}')).dropWhile (· = '*') ::
        placeholders (rest.dropWhile (· ≠ '}')).tail
    else placeholders rest
termination_by text => text.length
decreasing_by
  · have hdrop := (List.dropWhile_sublist (fun x => decide (x ≠ '}')) (l := rest)).length_le
    rw [List.length_tail, List.length_cons]
    omega
  · rw [List.length_cons]
    omega

theorem placeholders_skip {c : Char} {rest : List Char} (h : c = '{' → '}' ∉ rest) :
    placeholders (c :: rest) = placeholders rest := by
  rw [placeholders, if_neg fun ⟨hc, hrest⟩ => h hc hrest]

theorem placeholders_open {name after : List Char} (h : '}' ∉ name) :
    placeholders ('{' :: (name ++ '}' :: after)) =
      name.dropWhile (· = '*') :: placeholders after := by
  have hname : ∀ x ∈ name, decide (x ≠ '}') = true := fun x hx => by
    simpa using ne_of_mem_of_not_mem hx h
  rw [placeholders, if_pos ⟨rfl, by simp⟩, List.takeWhile_append_of_pos hname,
    List.dropWhile_append_of_pos hname]
  simp

namespace Scan

variable {pathLit : List Char} {s : Scan}

/-- At an opening brace: the slices start next to it, and end at the closing one. -/
theorem body_brace {before after : List Char} (hi : byteLen before = s.i)
    (hpath : pathLit = before ++ '{' :: after) :
    ∃ s', s.body pathLit = some s' ∧ s.i < s'.i ∧
      s'.names ++ placeholders (charsFrom pathLit s'.i) =
        s.names ++ placeholders (charsFrom pathLit s.i) := by
  subst hpath
  have hopen : byteLen (before ++ ['{']) = s.i + 1 := by
    rw [byteLen_append, hi]
    rfl
  have hbyte : (bytesOf (before ++ '{' :: after))[s.i]? = some 123 := by
    rw [bytesOf, List.flatMap_append, ← bytesOf, ← hi, byteLen,
      List.getElem?_append_right (Nat.le_refl _), Nat.sub_self]
    rfl
  have hahead : sliceFrom (before ++ '{' :: after) (s.i + 1) = some after := by
    rw [List.append_cons, ← hopen, sliceFrom_append]
  have hfrom : charsFrom (before ++ '{' :: after) s.i = '{' :: after := by
    rw [← hi, charsFrom_append]
  -- an opened brace that is never closed is skipped like any other character
  by_cases hclose : '}' ∈ after
  · obtain ⟨name, rest, rfl, hname⟩ := List.eq_append_cons_of_mem hclose
    have hslice : slice (before ++ '{' :: (name ++ '}' :: rest)) (s.i + 1)
        (s.i + 1 + byteLen name) = some name := by
      rw [List.append_cons, ← hopen, slice_append]
    have hnext : byteLen (before ++ '{' :: (name ++ ['}'])) = s.i + byteLen name + 2 := by
      rw [List.append_cons, byteLen_append, hopen, byteLen_append]
      show s.i + 1 + (byteLen name + 1) = _
      omega
    refine ⟨⟨s.i + byteLen name + 2, s.names ++ [name.dropWhile (· = '*')]⟩, ?_, ?_, ?_⟩
    · simp [body, hbyte, hahead, findChar_append hname, hslice]
    · show s.i < s.i + byteLen name + 2
      omega
    · have hrest : charsFrom (before ++ '{' :: (name ++ '}' :: rest)) (s.i + byteLen name + 2) =
          rest := by
        rw [← hnext, show before ++ '{' :: (name ++ '}' :: rest) =
          before ++ '{' :: (name ++ ['}']) ++ rest by simp, charsFrom_append]
      rw [hfrom, hrest, placeholders_open hname, List.append_assoc, List.singleton_append]
  · refine ⟨{ s with i := s.i + 1 }, ?_, Nat.lt_succ_self _, ?_⟩
    · simp [body, hbyte, hahead, findChar_eq_none hclose]
    · rw [hfrom, placeholders_skip fun _ => hclose]
      dsimp only
      rw [← hi, charsFrom_succ]

/-- **One iteration** does not panic, moves on, and finds what is there. -/
theorem body_spec (hi : s.i < byteLen pathLit) :
    ∃ s', s.body pathLit = some s' ∧ s.i < s'.i ∧
      s'.names ++ placeholders (charsFrom pathLit s'.i) =
        s.names ++ placeholders (charsFrom pathLit s.i) := by
  obtain ⟨b, hb⟩ : ∃ b, (bytesOf pathLit)[s.i]? = some b := ⟨_, List.getElem?_eq_getElem hi⟩
  -- off the braces, the scan moves on by a byte
  have hmove : b ≠ 123 → s.body pathLit = some { s with i := s.i + 1 } := fun hne => by
    simp [body, hb, hne]
  rcases byte_cases hb with ⟨before, c, after, hpath, hbefore, hc⟩ | ⟨hge, hsame⟩
  · by_cases hbrace : c = '{'
    · exact body_brace hbefore (hbrace ▸ hpath)
    · refine ⟨_, hmove ?_, Nat.lt_succ_self _, ?_⟩
      · rintro rfl
        exact hbrace (eq_of_head_utf8EncodeChar (by decide) hc)
      · rw [hpath, ← hbefore, charsFrom_append, placeholders_skip fun h => absurd h hbrace]
        dsimp only
        rw [charsFrom_succ]
  · -- inside a character: the characters ahead are the same
    refine ⟨_, hmove ?_, Nat.lt_succ_self _, ?_⟩
    · rintro rfl
      exact absurd hge (by decide)
    · dsimp only
      rw [hsame]

theorem left_step {t t' : Option Scan} (h : step pathLit t = some t') :
    left pathLit t' < left pathLit t := by
  cases t with
  | none => cases h
  | some s =>
    rw [step] at h
    split at h
    · rename_i hi
      obtain ⟨s', hbody, hlt, -⟩ := body_spec hi
      rw [hbody] at h
      cases h
      show byteLen pathLit + 1 - s'.i < byteLen pathLit + 1 - s.i
      omega
    · cases h

/-- The loop ends with the whole path behind it. The invariant: what has been found and what is
still ahead are all there is to find. -/
theorem loop_spec (pathLit : List Char) :
    ∃ s, loop pathLit = some s ∧ byteLen pathLit ≤ s.i ∧ s.names = placeholders pathLit := by
  have hinv : ∃ s, loop pathLit = some s ∧
      s.names ++ placeholders (charsFrom pathLit s.i) = placeholders pathLit := by
    refine whileLoop_invariant (I := fun t => ∃ s : Scan, t = some s ∧
      s.names ++ placeholders (charsFrom pathLit s.i) = placeholders pathLit) ?_
      ⟨_, rfl, by rw [charsFrom, List.nil_append]⟩
    intro t t' ht hstep
    obtain ⟨s, rfl, hs⟩ := ht
    rw [step] at hstep
    split at hstep
    · rename_i hi
      obtain ⟨s', hbody, -, hsame⟩ := body_spec hi
      exact ⟨s', by rw [← hbody]; exact (Option.some.inj hstep).symm, hsame.trans hs⟩
    · cases hstep
  obtain ⟨s, hs, hnames⟩ := hinv
  have hexit := whileLoop_exit (fun t t' (h : step pathLit t = some t') => left_step h)
    (some ⟨0, []⟩)
  rw [← loop, hs, step] at hexit
  have hdone : byteLen pathLit ≤ s.i := by
    by_contra hlt
    rw [if_pos (Nat.lt_of_not_le hlt)] at hexit
    cases hexit
  refine ⟨s, hs, hdone, ?_⟩
  rw [← hnames, charsFrom_of_le hdone, placeholders, List.append_nil]

end Scan

/-- **The byte loop finds what the characters say.** -/
theorem pathPlaceholders_eq (pathLit : List Char) :
    pathPlaceholders pathLit = some (placeholders pathLit) := by
  obtain ⟨s, hs, -, hnames⟩ := Scan.loop_spec pathLit
  rw [pathPlaceholders, hs, Option.map_some, hnames]

/-! ## Well-formed paths -/

/-- A piece of a well-formed path. -/
inductive Piece where
  | text (chars : List Char) (brace_free : '{' ∉ chars ∧ '}' ∉ chars)
  | placeholder (star : Bool) (name : List Char)
      (plain : ('{' ∉ name ∧ '}' ∉ name) ∧ name.head? ≠ some '*')

namespace Piece

def chars : Piece → List Char
  | text chars _ => chars
  | placeholder star name _ => '{' :: (if star then ['*'] else []) ++ name ++ ['}']

def name? : Piece → Option (List Char)
  | text _ _ => none
  | placeholder _ name _ => some name

end Piece

theorem placeholders_text {text rest : List Char} (h : '{' ∉ text) :
    placeholders (text ++ rest) = placeholders rest := by
  induction text with
  | nil => rfl
  | cons c text ih =>
    rw [List.mem_cons, not_or] at h
    rw [List.cons_append, placeholders_skip fun hc => absurd hc.symm h.1, ih h.2]

theorem dropWhile_star {star : Bool} {name : List Char} (h : name.head? ≠ some '*') :
    ((if star then ['*'] else []) ++ name).dropWhile (· = '*') = name := by
  have hname : name.dropWhile (fun x => decide (x = '*')) = name := by
    cases name with
    | nil => rfl
    | cons c name =>
      have hc : c ≠ '*' := fun hc => h (hc ▸ rfl)
      rw [List.dropWhile_cons, if_neg (by simpa using hc)]
  cases star with
  | false => exact hname
  | true => simpa using hname

theorem placeholders_pieces (pieces : List Piece) :
    placeholders (pieces.flatMap Piece.chars) = pieces.filterMap Piece.name? := by
  induction pieces with
  | nil => rw [List.flatMap_nil, placeholders, List.filterMap_nil]
  | cons piece pieces ih =>
    rw [List.flatMap_cons]
    cases piece with
    | text chars brace_free =>
      rw [Piece.chars, placeholders_text brace_free.1, ih]
      rfl
    | placeholder star name plain =>
      have hclose : '}' ∉ (if star then ['*'] else []) ++ name := by
        cases star <;> simp [plain.1.2]
      rw [Piece.chars, List.append_assoc, List.cons_append, List.cons_append, List.singleton_append,
        placeholders_open hclose, dropWhile_star plain.2, ih]
      rfl

/-- **The scan is safe, and exact.** On any text it comes to its end without an index or a slice
out of place; on a path made of texts without braces and of placeholders it returns the names. -/
theorem pathPlaceholders_spec :
    (∀ pathLit, ∃ s, Scan.loop pathLit = some s ∧ byteLen pathLit ≤ s.i ∧
      pathPlaceholders pathLit = some s.names) ∧
    ∀ pieces : List Piece,
      pathPlaceholders (pieces.flatMap Piece.chars) = some (pieces.filterMap Piece.name?) := by
  refine ⟨fun pathLit => ?_, fun pieces => ?_⟩
  · obtain ⟨s, hs, hdone, -⟩ := Scan.loop_spec pathLit
    exact ⟨s, hs, hdone, by rw [pathPlaceholders, hs, Option.map_some]⟩
  · rw [pathPlaceholders_eq, placeholders_pieces]

end Macros
end StanoPlatform
