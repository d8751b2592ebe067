import StanoPlatform.Lib.Pieces
import StanoPlatform.Macros.Tokens

/-!
# `Macros/AttrKeys.lean` — the keys of an attribute

The route macros cut an attribute at its top-level commas. A group is one token, so the only
brackets to look out for are `<` and `>`, and the loop keeps a depth for them. The depth is a
natural number here. The source counts in an `i32` and never goes below zero, so the two part
company at an attribute with 2^31 open `<` only.

The depth is all the loop knows, so it is a reader in the sense of `Lib/Pieces.lean` and the keys
are the pieces it cuts, less the empty ones (`splitTopLevelKeys_eq`). What is asked of a chunk for
it to come back whole is a grammar (`Closed`), and the reader gets through what the grammar
derives at whatever depth it enters (`Closed.through`).

From `split_top_level_keys` and `build_attr_key` in `stano-route-macros/src/lib.rs`. A token stream
is what `proc_macro2` gives, with its groups already matched.
-/

set_option autoImplicit false

namespace StanoPlatform
namespace Macros

open Lib

structure AttrKey where
  name : String
  tokens : TokenStream

def buildAttrKey (tokens : TokenStream) : AttrKey :=
  { name := match tokens with
      | .ident ident :: _ => ident
      | _ => ""
    tokens }

/-- The variables of `split_top_level_keys`. -/
structure Splitter where
  keys : List AttrKey
  current : TokenStream
  angleDepth : Nat

namespace Splitter

/-- `if !current.is_empty() { keys.push(..) }` -/
def flush (s : Splitter) : List AttrKey :=
  if s.current.isEmpty then s.keys else s.keys ++ [buildAttrKey s.current]

def push (s : Splitter) (tt : TokenTree) : Splitter := { s with current := s.current ++ [tt] }

def step (s : Splitter) (tt : TokenTree) : Splitter :=
  match tt with
  | .punct '<' => { s.push tt with angleDepth := s.angleDepth + 1 }
  -- at depth zero it stays there
  | .punct '>' => { s.push tt with angleDepth := s.angleDepth - 1 }
  | .punct ',' => if s.angleDepth = 0 then { s with keys := s.flush, current := [] } else s.push tt
  | tt => s.push tt

end Splitter

def splitTopLevelKeys (attr : TokenStream) : List AttrKey :=
  (attr.foldl Splitter.step ⟨[], [], 0⟩).flush

/-! ## The reader -/

def angles (depth : Nat) : TokenTree → Nat
  | .punct '<' => depth + 1
  | .punct '>' => depth - 1
  | _ => depth

def atComma (depth : Nat) : TokenTree → Bool
  | .punct ',' => depth == 0
  | _ => false

theorem eq_comma_of_atComma {depth : Nat} {tt : TokenTree} (h : atComma depth tt = true) :
    tt = .punct ',' := by
  unfold atComma at h
  split at h
  · rfl
  · cases h

namespace Splitter

variable {s : Splitter} {tt : TokenTree}

theorem step_of_atComma (h : atComma s.angleDepth tt = true) :
    s.step tt = { s with keys := s.flush, current := [] } := by
  cases eq_comma_of_atComma h
  have hdepth : s.angleDepth = 0 := by simpa [atComma] using h
  simp [step, hdepth]

theorem step_of_not_atComma (h : atComma s.angleDepth tt = false) :
    s.step tt = { s.push tt with angleDepth := angles s.angleDepth tt } := by
  unfold step
  split
  · rfl
  · rfl
  · have hdepth : s.angleDepth ≠ 0 := by simpa [atComma] using h
    rw [if_neg hdepth]
    rfl
  · rename_i hlt hgt hcomma
    unfold angles
    split
    · exact absurd rfl hlt
    · exact absurd rfl hgt
    · rfl

end Splitter

/-- The pieces that are chunks. -/
def nonEmpty (pieces : List TokenStream) : List TokenStream := pieces.filter fun p => !p.isEmpty

theorem flush_foldl (attr : TokenStream) (s : Splitter) :
    (attr.foldl Splitter.step s).flush = s.keys ++
      (nonEmpty ((cutAt atComma angles s.angleDepth attr).modifyHead (s.current ++ ·))).map
        buildAttrKey := by
  induction attr generalizing s with
  | nil =>
    rw [List.foldl_nil, cutAt, List.modifyHead_cons, List.append_nil, Splitter.flush, nonEmpty]
    cases s.current <;> simp
  | cons tt attr ih =>
    rw [List.foldl_cons, ih]
    cases hcut : atComma s.angleDepth tt with
    | true =>
      rw [Splitter.step_of_atComma hcut, cutAt, if_pos hcut, List.modifyHead_cons, List.append_nil]
      obtain ⟨first, rest, hrest⟩ :=
        List.exists_cons_of_ne_nil (cutAt_ne_nil atComma angles s.angleDepth attr)
      simp only [hrest, List.modifyHead_cons, List.nil_append, Splitter.flush, nonEmpty]
      cases s.current <;> simp
    | false =>
      rw [Splitter.step_of_not_atComma hcut, modifyHead_append_cutAt _ hcut]
      rfl

/-- **The loop cuts where the reader cuts.** -/
theorem splitTopLevelKeys_eq (attr : TokenStream) :
    splitTopLevelKeys attr = (nonEmpty (cutAt atComma angles 0 attr)).map buildAttrKey := by
  rw [splitTopLevelKeys, flush_foldl, List.nil_append]
  congr 2
  cases cutAt atComma angles 0 attr <;> rfl

/-! ## Chunks that come back whole -/

/-- Every `<` is closed by a later `>`, no `>` closes nothing, and a comma stands between a `<` and
its `>`; `inside` says whether the whole is between the two already. -/
inductive Closed : (inside : Bool) → TokenStream → Prop
  | nil {inside : Bool} : Closed inside []
  | token {inside : Bool} {tt : TokenTree} {rest : TokenStream}
      (plain : tt ≠ .punct '<' ∧ tt ≠ .punct '>' ∧ tt ≠ .punct ',') (hrest : Closed inside rest) :
      Closed inside (tt :: rest)
  | comma {rest : TokenStream} (hrest : Closed true rest) : Closed true (.punct ',' :: rest)
  | angle {inside : Bool} {inner rest : TokenStream} (hinner : Closed true inner)
      (hrest : Closed inside rest) :
      Closed inside (.punct '<' :: (inner ++ .punct '>' :: rest))

theorem angles_of_plain {depth : Nat} {tt : TokenTree}
    (h : tt ≠ .punct '<' ∧ tt ≠ .punct '>' ∧ tt ≠ .punct ',') : angles depth tt = depth := by
  unfold angles
  split
  · exact absurd rfl h.1
  · exact absurd rfl h.2.1
  · rfl

theorem atComma_of_ne {depth : Nat} {tt : TokenTree} (h : tt ≠ .punct ',') :
    atComma depth tt = false := by
  unfold atComma
  split
  · exact absurd rfl h
  · rfl

/-- **The reader gets through**, and out at the depth it came in. -/
theorem Closed.through {inside : Bool} {ts : TokenStream} (h : Closed inside ts) :
    ∀ {depth : Nat}, (inside = true → 0 < depth) → Through atComma angles depth ts depth := by
  induction h with
  | nil => exact fun _ => .nil
  | token plain hrest ih =>
    intro depth hdepth
    refine .cons (atComma_of_ne plain.2.2) ?_
    rw [angles_of_plain plain]
    exact ih hdepth
  | comma hrest ih =>
    intro depth hdepth
    have hpos := hdepth rfl
    exact .cons (by simp [atComma, Nat.ne_of_gt hpos]) (ih hdepth)
  | angle hinner hrest ihinner ihrest =>
    intro depth hdepth
    refine .cons rfl (.append (ihinner fun _ => Nat.succ_pos depth) (.cons rfl ?_))
    exact ihrest hdepth

/-- The name of a chunk is the identifier it starts with. -/
def AttrKey.Named (key : AttrKey) : Prop :=
  (∀ ident rest, key.tokens = .ident ident :: rest → key.name = ident) ∧
    ((∀ ident rest, key.tokens ≠ .ident ident :: rest) → key.name = "")

theorem named_buildAttrKey (tokens : TokenStream) : (buildAttrKey tokens).Named := by
  refine ⟨fun ident rest h => ?_, fun h => ?_⟩
  · have htokens : tokens = .ident ident :: rest := h
    subst htokens
    rfl
  · unfold buildAttrKey
    split
    · exact absurd rfl (h _ _)
    · rfl

theorem mem_nonEmpty {pieces : List TokenStream} {p : TokenStream} :
    p ∈ nonEmpty pieces ↔ p ∈ pieces ∧ p ≠ [] := by
  rw [nonEmpty, List.mem_filter]
  cases p <;> simp

/-- **Splitting and joining are inverse.** The chunks of a stream are its pieces between single
commas, less the empty ones; and chunks that are closed come back from the stream they are joined
to. -/
theorem splitTopLevelKeys_intercalate :
    (∀ attr, ∃ pieces, [.punct ','].intercalate pieces = attr ∧
      (splitTopLevelKeys attr).map (·.tokens) = nonEmpty pieces) ∧
    (∀ attr, ∀ key ∈ splitTopLevelKeys attr, key.tokens ≠ [] ∧ key.Named) ∧
    ∀ chunks : List TokenStream, (∀ chunk ∈ chunks, chunk ≠ [] ∧ Closed false chunk) →
      (splitTopLevelKeys ([.punct ','].intercalate chunks)).map (·.tokens) = chunks := by
  have htokens : ∀ pieces : List TokenStream,
      (pieces.map buildAttrKey).map (·.tokens) = pieces := fun pieces => by
    rw [List.map_map]
    exact List.map_id _
  refine ⟨fun attr => ⟨cutAt atComma angles 0 attr, ?_, ?_⟩, fun attr key hkey => ?_,
    fun chunks hchunks => ?_⟩
  · exact intercalate_cutAt (fun _ _ => eq_comma_of_atComma) 0 attr
  · rw [splitTopLevelKeys_eq, htokens]
  · rw [splitTopLevelKeys_eq, List.mem_map] at hkey
    obtain ⟨piece, hpiece, rfl⟩ := hkey
    exact ⟨(mem_nonEmpty.mp hpiece).2, named_buildAttrKey piece⟩
  · rw [splitTopLevelKeys_eq, htokens]
    cases chunks with
    | nil => rfl
    | cons chunk chunks =>
      rw [cutAt_intercalate rfl (List.cons_ne_nil _ _) fun p hp =>
        (hchunks p hp).2.through (fun h => absurd h (by simp))]
      refine List.filter_eq_self.mpr fun p hp => ?_
      simpa using (hchunks p hp).1

end Macros
end StanoPlatform
