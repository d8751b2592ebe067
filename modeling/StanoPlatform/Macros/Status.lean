import StanoPlatform.Macros.Forwarding
import StanoPlatform.Macros.Utoipa

/-!
# `Macros/Status.lean` — which entries of `responses(..)` are the 200

The macro answers for the 200 response and refuses an explicit one. It looks for a literal that is
written `200`; `utoipa` reads the value. So there are two notions, and neither is defined by the
other.

* What an entry denotes (`Utoipa.denotes200`). The keys are found the way `utoipa` finds them, and
  the value may be the number in any spelling or the name of the constant.
* What the macro sees (`Written200`). It cuts the entry itself, and looks at the text of the
  literals in the piece.

An entry that denotes 200 and is not seen gets by. An entry that is seen and does not denote 200 is
refused for nothing. The second takes more: in an entry with other statuses only, what the macro
took for the status is part of the value of another key, which it cut open
(`DenotesOther.written200_elsewhere`).

From `entry_has_status_200` and `route_method_fn` in `stano-route-macros/src/lib.rs`. What `utoipa`
and `syn` make of the same tokens is `Macros/Utoipa.lean`; of the values that it leaves open one
thing is assumed, that the type which the macro itself writes is read whole (`Utoipa.TakesType`).
-/

set_option autoImplicit false

namespace StanoPlatform
namespace Macros

open Lib

/-! ## Integer literals -/

def intSuffixes : List String :=
  ["i8", "i16", "i32", "i64", "i128", "isize", "u8", "u16", "u32", "u64", "u128", "usize"]

def digitValue (base : Nat) (c : Char) : Option Nat :=
  let value :=
    if 48 ≤ c.toNat ∧ c.toNat ≤ 57 then c.toNat - 48
    else if 65 ≤ c.toNat ∧ c.toNat ≤ 70 then c.toNat - 55
    else if 97 ≤ c.toNat ∧ c.toNat ≤ 102 then c.toNat - 87
    else base
  if value < base then some value else none

/-- The digits, underscores anywhere between and after them, and a suffix. -/
def readDigits (base : Nat) : Option Nat → List Char → Option Nat
  | value, [] => value
  | value, c :: rest =>
    if c = '_' then readDigits base value rest
    else match digitValue base c with
      | some d => readDigits base (some (value.getD 0 * base + d)) rest
      | none => if intSuffixes.any (·.toList = c :: rest) then value else none

/-- The value of a literal token, if it is an integer. -/
def intLiteral (lit : String) : Option Nat :=
  match lit.toList with
  | '0' :: 'x' :: digits => readDigits 16 none digits
  | '0' :: 'o' :: digits => readDigits 8 none digits
  | '0' :: 'b' :: digits => readDigits 2 none digits
  | digits => readDigits 10 none digits

example : ["200", "200u16", "2_00", "200_i32", "0xC8", "0xc8usize", "0o310", "0b1100_1000"].all
    (intLiteral · = some 200) = true := by decide

example : ["404", "0x200", "200f32", "\"200\""].all (intLiteral · ≠ some 200) = true := by decide

/-! ## What a status denotes -/

/-- Identifiers with `::` between them. -/
def pathIdents : TokenStream → Option (List String)
  | [.ident ident] => some [ident]
  | .ident ident :: .punct ':' :: .punct ':' :: rest => (pathIdents rest).map (ident :: ·)
  | _ => none

inductive Status where
  | number (n : Nat)
  | constant (path : List String)
  -- `"4XX"`, `"default"`
  | range (text : String)
  deriving DecidableEq, Repr

/-- The value of a `status` key. -/
def readStatus : TokenStream → Option Status
  | [.literal lit] =>
    match intLiteral lit with
    | some n => some (.number n)
    | none => if lit.toList.head? = some '"' then some (.range lit) else none
  | .punct ':' :: .punct ':' :: rest => (pathIdents rest).map .constant
  | value => (pathIdents value).map .constant

/-- The number 200, `OK`, or a path that ends in `StatusCode::OK`. -/
def Status.is200 : Status → Bool
  | number n => n == 200
  | constant path => path == ["OK"] || ["StatusCode", "OK"].isSuffixOf path
  | range _ => false

/-- What a `status` key gives, by the tokens behind its name. -/
def statusOf : TokenStream → Option Status
  | .punct '=' :: value => readStatus value
  | _ => none

namespace Utoipa

variable (U : Utoipa)

/-- The statuses an entry gives: the values of its `status` keys. -/
def statuses : TokenTree → List (Option Status)
  | .group .parenthesis stream =>
    ((U.keys stream).1.filter (·.1 = "status")).map fun key => statusOf key.2
  | _ => []

/-- The entry can be read, and every status it gives is one, and another. -/
structure DenotesOther (entry : TokenTree) : Prop where
  readable : ∀ stream, entry = .group .parenthesis stream → (U.keys stream).2 = true
  others : ∀ status ∈ U.statuses entry, ∃ s, status = some s ∧ s.is200 = false

end Utoipa

/-- A piece of the entry, as the macro cuts it, begins with `status` and has a literal `200` in it,
with letters at most behind. -/
def Written200 (entry : TokenTree) : Prop :=
  ∃ stream key letters, entry = .group .parenthesis stream ∧ key ∈ splitTopLevelKeys stream ∧
    key.name = "status" ∧ .literal (.ofList ('2' :: '0' :: '0' :: letters)) ∈ key.tokens ∧
      letters.all Char.isAlpha = true

/-! ## What the macro sees -/

theorem toNat_of_isAlpha {c : Char} (h : c.isAlpha = true) :
    (65 ≤ c.toNat ∧ c.toNat ≤ 90) ∨ (97 ≤ c.toNat ∧ c.toNat ≤ 122) := by
  have hcases : (decide (c.val ≥ 'A'.val ∧ c.val ≤ 'Z'.val) ||
      (decide (c.val ≥ 'a'.val) && decide (c.val ≤ 'z'.val))) = true := h
  simp only [Bool.or_eq_true, Bool.and_eq_true, decide_eq_true_eq, UInt32.le_iff_toNat_le,
    ge_iff_le] at hcases
  exact hcases

theorem digitValue_of_isAlpha {c : Char} (h : c.isAlpha = true) : digitValue 10 c = none := by
  have hrange := toNat_of_isAlpha h
  simp only [digitValue, ite_eq_right_iff, reduceCtorEq]
  split_ifs <;> omega

/-- A literal written `200` is the number 200, or no integer. -/
theorem intLiteral_of_letters {letters : List Char} (h : letters.all Char.isAlpha = true) {n : Nat}
    (hn : intLiteral (.ofList ('2' :: '0' :: '0' :: letters)) = some n) : n = 200 := by
  rw [intLiteral, String.toList_ofList] at hn
  have hread : readDigits 10 none ('2' :: '0' :: '0' :: letters) =
      readDigits 10 (some 200) letters := rfl
  replace hn : readDigits 10 none ('2' :: '0' :: '0' :: letters) = some n := hn
  rw [hread] at hn
  cases letters with
  | nil => exact (Option.some.inj hn).symm
  | cons c rest =>
    rw [List.all_cons, Bool.and_eq_true] at h
    have hc : c ≠ '_' := by
      rintro rfl
      exact absurd h.1 (by decide)
    rw [readDigits, if_neg hc, digitValue_of_isAlpha h.1] at hn
    simp only at hn
    split at hn
    · exact (Option.some.inj hn).symm
    · cases hn

theorem literal_notMem_of_pathIdents {value : TokenStream} {path : List String}
    (h : pathIdents value = some path) (lit : String) : .literal lit ∉ value := by
  induction value using pathIdents.induct generalizing path with
  | case1 ident => simp
  | case2 ident rest ih =>
    rw [pathIdents] at h
    obtain ⟨more, hmore, -⟩ := Option.map_eq_some_iff.mp h
    simpa using ih hmore
  | case3 value hone hmore =>
    rw [pathIdents] at h
    · cases h
    · exact hone
    · exact hmore

/-- A literal written `200` is no status but 200. A status is one literal or a path, and in a path
there is no literal. -/
theorem is200_of_readStatus {value : TokenStream} {status : Status} {letters : List Char}
    (h : readStatus value = some status) (hletters : letters.all Char.isAlpha = true)
    (hmem : .literal (.ofList ('2' :: '0' :: '0' :: letters)) ∈ value) :
    status.is200 = true := by
  unfold readStatus at h
  split at h
  · rename_i lit
    rw [List.mem_singleton, TokenTree.literal.injEq] at hmem
    subst hmem
    split at h
    · rename_i n hn
      cases h
      rw [Status.is200, intLiteral_of_letters hletters hn]
      rfl
    · rw [String.toList_ofList] at h
      cases h
  · rename_i rest
    obtain ⟨path, hpath, -⟩ := Option.map_eq_some_iff.mp h
    rw [List.mem_cons, List.mem_cons, or_iff_right (by simp), or_iff_right (by simp)] at hmem
    exact absurd hmem (literal_notMem_of_pathIdents hpath _)
  · obtain ⟨path, hpath, -⟩ := Option.map_eq_some_iff.mp h
    exact absurd hmem (literal_notMem_of_pathIdents hpath _)

/-! ### Seen where it is not -/

/-- No chunk boundary takes anything but a comma away. -/
theorem mem_splitTopLevelKeys {tt : TokenTree} (htt : tt ≠ .punct ',') {inner : TokenStream} :
    tt ∈ (splitTopLevelKeys inner).flatMap (·.tokens) ↔ tt ∈ inner := by
  have hflat : (splitTopLevelKeys inner).flatMap (·.tokens) =
      (cutAt atComma angles 0 inner).flatten := by
    rw [splitTopLevelKeys_eq, List.flatMap_map]
    exact List.flatMap_id.trans List.flatten_filter_not_isEmpty
  rw [hflat]
  exact mem_flatten_cutAt (fun _ => atComma_of_ne htt) 0 inner

theorem literal_mem_walk {lit : String} {stream : TokenStream} (h : .literal lit ∈ stream) :
    .literal lit ∈ walk stream := by
  induction stream with
  | nil => cases h
  | cons tt rest ih =>
    rw [walk, List.mem_append]
    rcases List.mem_cons.mp h with rfl | h
    · exact .inl (List.mem_singleton_self _)
    · exact .inr (ih h)

namespace Utoipa

variable {U : Utoipa}

/-- In an argument list that is read to its end every literal belongs to a key. -/
theorem literal_mem_keys {lit : String} {stream : TokenStream}
    (hread : (U.keys stream).2 = true) (h : .literal lit ∈ stream) :
    ∃ key ∈ (U.keys stream).1, .literal lit ∈ key.2 := by
  obtain ⟨key, hkey, start, n, hitem, hmem⟩ :=
    mem_of_read hread (literal_mem_walk h) (by simp)
  refine ⟨key, hkey, ?_⟩
  unfold Utoipa.key at hitem
  split at hitem
  · rename_i name rest
    obtain ⟨m, -, hfound⟩ := Option.map_eq_some_iff.mp hitem
    cases hfound
    simpa using hmem
  · cases hitem

/-- **Nobody is refused for a status.** Where an entry gives other statuses only and the macro sees
a 200 in it, the literal it sees is in the value of another key. -/
theorem DenotesOther.written200_elsewhere {stream : TokenStream}
    (h : U.DenotesOther (.group .parenthesis stream))
    (hwritten : Written200 (.group .parenthesis stream)) :
    ∃ key ∈ (U.keys stream).1, key.1 ≠ "status" ∧ ∃ letters : List Char,
      letters.all Char.isAlpha = true ∧
        .literal (.ofList ('2' :: '0' :: '0' :: letters)) ∈ key.2 := by
  obtain ⟨_, chunk, letters, hentry, hchunk, -, hlit, hletters⟩ := hwritten
  cases hentry
  have hmem := (mem_splitTopLevelKeys (by simp)).mp (List.mem_flatMap.mpr ⟨chunk, hchunk, hlit⟩)
  obtain ⟨key, hkey, hvalue⟩ := literal_mem_keys (h.readable stream rfl) hmem
  refine ⟨key, hkey, fun hname => ?_, letters, hletters, hvalue⟩
  obtain ⟨status, hstatus, hnot⟩ := h.others (statusOf key.2)
    (List.mem_map.mpr ⟨key, List.mem_filter.mpr ⟨hkey, by simpa using hname⟩, rfl⟩)
  unfold statusOf at hstatus
  split at hstatus
  · rename_i value htokens
    rw [htokens, List.mem_cons, or_iff_right (by simp)] at hvalue
    rw [is200_of_readStatus hstatus hletters hvalue] at hnot
    cases hnot
  · cases hstatus

end Utoipa

/-! ## When a handler with a body expands -/

namespace Utoipa

variable (U : Utoipa)

/-- What stands between the parentheses of each explicit `responses(..)`: of the chunks the macro
takes for one, and of those in which `utoipa` finds one all the same. -/
def explicit (attr : TokenStream) : List TokenStream :=
  (splitTopLevelKeys attr).flatMap fun key =>
    (if key.name = "responses" then (groupInnerTokens key.tokens).toList else []) ++
      U.contents key.tokens

end Utoipa

namespace Utoipa

variable {U : Utoipa}

end Utoipa

end Macros
end StanoPlatform
