import Mathlib.Data.List.Basic

/-!
# `Macros/Tokens.lean` — what a proc macro reads

Token trees as `proc_macro2` gives them, without spans and spacing, and the part of `syn`'s syntax
tree that the platform's macros look into: a type is a path, a trait object, or something they do
not look into.

A group is one token with its contents in it, of one of four delimiters. The fourth, none, is what a
macro by example leaves around a fragment.
-/

set_option autoImplicit false

namespace StanoPlatform
namespace Macros

inductive Delimiter where
  | parenthesis
  | brace
  | bracket
  | none
  deriving DecidableEq, Repr

inductive TokenTree where
  | group (delimiter : Delimiter) (stream : List TokenTree)
  | ident (name : String)
  | punct (char : Char)
  | literal (text : String)

abbrev TokenStream : Type := List TokenTree

mutual

/-- `syn::Type` -/
inductive Ty where
  | path (qself : Option Ty) (leadingColon : Bool) (segments : List PathSegment)
  | traitObject (dyn : Bool) (bounds : TokenStream)
  -- references, tuples, function pointers, types in parentheses and the rest
  | other (tokens : TokenStream)

inductive PathSegment where
  | mk (ident : String) (arguments : PathArguments)

inductive PathArguments where
  | none
  | angleBracketed (args : List GenericArgument)
  | parenthesized (tokens : TokenStream)

inductive GenericArgument where
  | type (ty : Ty)
  -- a lifetime, a constant, a binding, a constraint
  | other (tokens : TokenStream)

end

def PathSegment.ident : PathSegment → String
  | mk ident _ => ident

def PathSegment.arguments : PathSegment → PathArguments
  | mk _ arguments => arguments

/-- The generic arguments of a type that is a path ending in `wrapper<..>`. -/
def Ty.wrapperArgs (wrapper : String) : Ty → Option (List GenericArgument)
  | path _ _ segments =>
    match segments.getLast? with
    | some (.mk ident (.angleBracketed args)) => if ident = wrapper then some args else none
    | _ => none
  | _ => none

theorem Ty.wrapperArgs_eq_some {wrapper : String} {ty : Ty} {args : List GenericArgument} :
    ty.wrapperArgs wrapper = some args ↔ ∃ qself leadingColon segments,
      ty = .path qself leadingColon (segments ++ [.mk wrapper (.angleBracketed args)]) := by
  constructor
  · intro h
    cases ty with
    | path qself leadingColon segments =>
      rw [wrapperArgs] at h
      split at h
      · rename_i ident args' hlast
        split at h
        · rename_i hident
          cases h
          obtain ⟨front, rfl⟩ := List.getLast?_eq_some_iff.mp hlast
          exact ⟨qself, leadingColon, front, by rw [hident]⟩
        · cases h
      · cases h
    | traitObject => cases h
    | other => cases h
  · rintro ⟨qself, leadingColon, segments, rfl⟩
    simp [wrapperArgs]

end Macros
end StanoPlatform
