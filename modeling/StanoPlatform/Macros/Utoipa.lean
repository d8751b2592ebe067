import StanoPlatform.Macros.Tokens

/-!
# `Macros/Utoipa.lean` — what `utoipa` reads of its arguments

The route macros write an attribute for another macro, `#[utoipa::path(..)]`, and what they leave
in it means what `utoipa` reads there. That reading is not the one of `Macros/AttrKeys.lean`, and
nothing here uses it. `utoipa` reads with `syn`, and two differences matter.

* A value ends where `syn`'s parser of expressions, types or whatever the key takes is done, not at
  a comma the macro would cut at. In `description = if N < 2 { .. } else { .. }, status = 200` the
  `<` opens nothing.
* `syn` walks through a group without delimiters as if its tokens stood in its place. Such groups
  are what is left of the fragments of a `macro_rules!` macro.

The loop over the keys is `utoipa`'s, and so is the reading of the two keys that matter, `status`
and `responses`. How far the value of any other key goes is `syn`'s business and a parameter
(`Utoipa`), of which nothing is assumed here.
-/

set_option autoImplicit false

namespace StanoPlatform
namespace Macros

mutual

/-- The tokens `syn` finds where a token tree stands. -/
def TokenTree.walk : TokenTree → TokenStream
  | .group .none stream => walk stream
  | .group .parenthesis stream => [.group .parenthesis stream]
  | .group .brace stream => [.group .brace stream]
  | .group .bracket stream => [.group .bracket stream]
  | .ident name => [.ident name]
  | .punct char => [.punct char]
  | .literal text => [.literal text]

def walk : TokenStream → TokenStream
  | [] => []
  | tt :: rest => tt.walk ++ walk rest

end

/-! ## Items with commas between them -/

section

variable {α : Type}

/-- The items of a stream as far as they can be read, and whether that is to the end. `item` reads
one of them, and says how many tokens it has. -/
def readItems (item : TokenStream → Option (α × Nat)) : Nat → TokenStream → List α × Bool
  | _, [] => ([], true)
  | 0, _ :: _ => ([], false)
  | fuel + 1, tt :: rest =>
    match item (tt :: rest) with
    | none => ([], false)
    | some (a, n) =>
      match (tt :: rest).drop n with
      | [] => ([a], true)
      | .punct ',' :: more => ((a :: (readItems item fuel more).1), (readItems item fuel more).2)
      | _ => ([a], false)

/-- Every item but the last is followed by a comma, so there are no more of them than tokens. -/
def read (item : TokenStream → Option (α × Nat)) (stream : TokenStream) : List α × Bool :=
  readItems item stream.length stream

variable {item : TokenStream → Option (α × Nat)}

/-- Any fuel will do that is as long as the stream: an item takes at least the comma behind it. -/
theorem readItems_of_le {fuel fuel' : Nat} {stream : TokenStream} (h : stream.length ≤ fuel)
    (h' : stream.length ≤ fuel') : readItems item fuel stream = readItems item fuel' stream := by
  induction fuel generalizing fuel' stream with
  | zero =>
    cases stream with
    | nil => cases fuel' <;> rfl
    | cons tt rest => simp at h
  | succ fuel ih =>
    cases stream with
    | nil => cases fuel' <;> rfl
    | cons tt rest =>
      cases fuel' with
      | zero => simp at h'
      | succ fuel' =>
        rw [readItems, readItems]
        cases item (tt :: rest) with
        | none => rfl
        | some found =>
          obtain ⟨a, n⟩ := found
          have hdrop : ((tt :: rest).drop n).length ≤ rest.length + 1 := by simp
          simp only
          split
          · rfl
          · rename_i more hmore
            rw [hmore] at hdrop
            simp only [List.length_cons] at h h' hdrop
            have hsame : readItems item fuel more = readItems item fuel' more :=
              ih (by omega) (by omega)
            rw [hsame]
          · rfl

/-- **One item, and what is behind its comma.** -/
theorem read_of_item {stream more : TokenStream} {a : α} {n : Nat} (hne : stream ≠ [])
    (hitem : item stream = some (a, n)) (hmore : stream.drop n = .punct ',' :: more) :
    read item stream = (a :: (read item more).1, (read item more).2) := by
  obtain ⟨tt, rest, rfl⟩ := List.exists_cons_of_ne_nil hne
  have hlength : more.length + 1 ≤ rest.length + 1 := by
    have hdrop : ((tt :: rest).drop n).length ≤ rest.length + 1 := by simp
    rwa [hmore] at hdrop
  rw [read, List.length_cons, readItems, hitem]
  simp only [hmore]
  have hmore : readItems item rest.length more = read item more :=
    readItems_of_le (by omega) (Nat.le_refl _)
  rw [hmore]

/-- A last item: nothing behind it, or nothing that could be read. -/
theorem read_of_last {stream : TokenStream} {a : α} {n : Nat} (hne : stream ≠ [])
    (hitem : item stream = some (a, n)) (hlast : ∀ more, stream.drop n ≠ .punct ',' :: more) :
    (read item stream).1 = [a] := by
  obtain ⟨tt, rest, rfl⟩ := List.exists_cons_of_ne_nil hne
  rw [read, List.length_cons, readItems, hitem]
  simp only
  split
  · rfl
  · rename_i more hmore
    exact absurd hmore (hlast more)
  · rfl

theorem read_of_none {stream : TokenStream} (hne : stream ≠ []) (hitem : item stream = none) :
    read item stream = ([], false) := by
  obtain ⟨tt, rest, rfl⟩ := List.exists_cons_of_ne_nil hne
  rw [read, List.length_cons, readItems, hitem]

/-- In a stream that is read to its end every token but the commas is in an item. -/
theorem mem_of_read {stream : TokenStream} (hread : (read item stream).2 = true) {x : TokenTree}
    (hx : x ∈ stream) (hcomma : x ≠ .punct ',') :
    ∃ a ∈ (read item stream).1, ∃ start n, item start = some (a, n) ∧ x ∈ start.take n := by
  induction hlength : stream.length using Nat.strongRecOn generalizing stream with
  | ind length ih =>
    have hne : stream ≠ [] := List.ne_nil_of_mem hx
    cases hitem : item stream with
    | none =>
      rw [read_of_none hne hitem] at hread
      cases hread
    | some found =>
      obtain ⟨a, n⟩ := found
      by_cases hmore : ∃ more, stream.drop n = .punct ',' :: more
      · obtain ⟨more, hmore⟩ := hmore
        rw [read_of_item hne hitem hmore] at hread ⊢
        rw [← List.take_append_drop n stream, hmore, List.mem_append, List.mem_cons] at hx
        rcases hx with hx | hx | hx
        · exact ⟨a, List.mem_cons_self, stream, n, hitem, hx⟩
        · exact absurd hx hcomma
        · have hshorter : more.length < length := by
            have hdrop : (stream.drop n).length ≤ stream.length := by simp
            rw [hmore, List.length_cons] at hdrop
            omega
          obtain ⟨b, hb, htoken⟩ := ih _ hshorter hread hx rfl
          exact ⟨b, List.mem_cons_of_mem _ hb, htoken⟩
      · push Not at hmore
        rw [read_of_last hne hitem hmore]
        refine ⟨a, List.mem_singleton_self a, stream, n, hitem, ?_⟩
        -- read to its end, and no comma: there is nothing behind the item
        have hdrop : stream.drop n = [] := by
          obtain ⟨tt, rest, rfl⟩ := List.exists_cons_of_ne_nil hne
          rw [read, List.length_cons, readItems, hitem] at hread
          simp only at hread
          split at hread
          · assumption
          · rename_i more heq
            exact absurd heq (hmore more)
          · cases hread
        rwa [← List.take_append_drop n stream, hdrop, List.append_nil] at hx

end

/-! ## Keys and responses -/

/-- What `utoipa` leaves to `syn`. -/
structure Utoipa where
  -- how many of the tokens behind the name of a key are its value, if they begin with one it takes
  extent : String → TokenStream → Option Nat
  -- how many tokens the path to a type is that implements `IntoResponses`
  path : TokenStream → Option Nat

def isComma : TokenTree → Bool
  | .punct ',' => true
  | _ => false

namespace Utoipa

variable (U : Utoipa)

/-- The tokens a key has behind its name. A status is a literal or a path, and has no comma in it;
`responses` has its entries in a group. -/
def extentOf (name : String) (rest : TokenStream) : Option Nat :=
  if name = "status" then some (rest.takeWhile fun tt => !isComma tt).length
  else if name = "responses" then
    match rest with
    | .group _ _ :: _ => some 1
    | _ => none
  else U.extent name rest

def key : TokenStream → Option ((String × TokenStream) × Nat)
  | .ident name :: rest => (U.extentOf name rest).map fun n => ((name, rest.take n), n + 1)
  | _ => none

/-- The keys of a list of arguments, by their names. -/
def keys (args : TokenStream) : List (String × TokenStream) × Bool := read U.key (walk args)

/-- What stands in `responses(..)`: a response in parentheses, or the path to a type. -/
def response : TokenStream → Option (Option TokenTree × Nat)
  | .group .parenthesis stream :: _ => some (some (.group .parenthesis stream), 1)
  | stream => (U.path stream).map fun n => (none, n)

def responses (inner : TokenStream) : List (Option TokenTree) × Bool := read U.response (walk inner)

/-- The responses that are written out, of a `responses(..)` with this between its parentheses. -/
def entries (inner : TokenStream) : List TokenTree := (U.responses inner).1.reduceOption

/-- What stands between the parentheses of each `responses(..)` of an argument list. -/
def contents (args : TokenStream) : List TokenStream :=
  (U.keys args).1.filterMap fun key =>
    if key.1 = "responses" then
      match key.2 with
      | [.group _ inner] => some inner
      | _ => none
    else none

end Utoipa

end Macros
end StanoPlatform
