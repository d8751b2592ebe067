import StanoPlatform.Macros.Tokens

/-!
# `Macros/Service.lean` — what `#[service]` generates, from the struct on

`Di/Service.lean` starts from a list of dependencies and has the declared ids and the lookups made
of it together. Here is where they come from: `service_struct` walks the fields once and pushes to
four vectors, and the expansion uses the vectors apart. That they stay in step is one lemma about
the walk (`foldlM_push`); everything said of an expansion is read off it.

An expansion is kept as the parts of its `quote!`; what they come to when they run is
`Macros/Injection.lean`.

From `service_struct` and `service_impl` in `stano-di-macros/src/lib.rs`. A struct is what `syn` has
parsed: its attributes, generics and fields, with the types as far as `extract_arc_inner` and
`is_trait_object` look into them.
-/

set_option autoImplicit false

namespace StanoPlatform
namespace Macros

/-! ## The item -/

inductive GenericParam where
  | lifetime (tokens : TokenStream)
  | type (tokens : TokenStream)
  | const (tokens : TokenStream)

structure Generics where
  params : List GenericParam
  wherePredicates : List TokenStream

structure NamedField where
  attrs : List TokenStream
  vis : TokenStream
  ident : String
  ty : Ty

structure UnnamedField where
  attrs : List TokenStream
  vis : TokenStream
  ty : Ty

inductive Fields where
  | named (fields : List NamedField)
  | unnamed (fields : List UnnamedField)
  | unit

/-- `syn::ItemStruct` -/
structure ItemStruct where
  attrs : List TokenStream
  vis : TokenStream
  ident : String
  generics : Generics
  fields : Fields

inductive Item where
  | struct (structDef : ItemStruct)
  | other

/-! ## The expansion -/

/-- An element of `dependency_ids()`. -/
inductive DependencyId where
  -- `std::any::TypeId::of::<#inner>()`
  | typeIdOf (inner : Ty)
  -- `TraitObject::<#inner>::type_id()`
  | traitObjectTypeId (inner : Ty)

inductive GetCall where
  -- `container.get::<#inner>()`
  | get (inner : Ty)
  -- `container.get_trait::<#inner>()`
  | getTrait (inner : Ty)

inductive RegisterCall where
  -- `container.register_with_deps::<#struct_name>(..)`
  | withDeps
  -- `container.register_trait_with_deps::<#trait_ty>(..)`
  | traitWithDeps (traitTy : Ty)

inductive ConstructorBody where
  -- `Self`
  | unit
  -- `Self { #(#inits),* }`
  | fields (inits : List String)

structure ServiceExpansion where
  structDef : ItemStruct
  newParams : List (String × Ty)
  constructorBody : ConstructorBody
  dependencyIds : List DependencyId
  -- the arguments of `Self::new(..)` in `build`
  newCall : List GetCall
  registerCall : RegisterCall

def extractArcInner (ty : Ty) : Option Ty :=
  match ty.wrapperArgs "Arc" with
  | some (.type inner :: _) => some inner
  | _ => none

def isTraitObject : Ty → Bool
  | .traitObject _ _ => true
  | _ => false

/-- The four vectors. -/
structure FieldParts where
  fieldNames : List String
  fieldTypes : List Ty
  dependencyIds : List DependencyId
  getCalls : List GetCall

def FieldParts.empty : FieldParts := ⟨[], [], [], []⟩

def FieldParts.push (parts : FieldParts) (field : NamedField) : Except String FieldParts :=
  match extractArcInner field.ty with
  | none => .error "Fields in #[service] structs must be typed as Arc<T>"
  | some innerType =>
    let parts := { parts with
      fieldNames := parts.fieldNames ++ [field.ident]
      fieldTypes := parts.fieldTypes ++ [field.ty] }
    if isTraitObject innerType then
      .ok { parts with
        dependencyIds := parts.dependencyIds ++ [.traitObjectTypeId innerType]
        getCalls := parts.getCalls ++ [.getTrait innerType] }
    else
      .ok { parts with
        dependencyIds := parts.dependencyIds ++ [.typeIdOf innerType]
        getCalls := parts.getCalls ++ [.get innerType] }

def fieldParts : Fields → Except String FieldParts
  | .named fields => fields.foldlM FieldParts.push .empty
  | .unit => .ok .empty
  | .unnamed _ =>
    .error "#[service] only supports structs with named fields or unit structs"

def GenericParam.isLifetime : GenericParam → Bool
  | lifetime _ => true
  | type _ | const _ => false

/-- `#generics`: `syn` prints the parameters, lifetimes before the rest, and leaves the where-clause
to the item. -/
def Generics.quoted (generics : Generics) : Generics :=
  { params := generics.params.filter (·.isLifetime) ++ generics.params.filter (!·.isLifetime)
    wherePredicates := [] }

/-- `#struct_vis struct #struct_name #generics #reconstructed_fields` -/
def reconstructed (structDef : ItemStruct) : ItemStruct :=
  { attrs := []
    vis := structDef.vis
    ident := structDef.ident
    generics := structDef.generics.quoted
    fields := structDef.fields }

def RegisterCall.of : Option Ty → RegisterCall
  | some traitTy => .traitWithDeps traitTy
  | none => .withDeps

def serviceStruct (structDef : ItemStruct) (traitType : Option Ty) :
    Except String ServiceExpansion := do
  let parts ← fieldParts structDef.fields
  return {
    structDef := reconstructed structDef
    newParams := parts.fieldNames.zip parts.fieldTypes
    constructorBody := if parts.fieldNames.isEmpty then .unit else .fields parts.fieldNames
    dependencyIds := parts.dependencyIds
    newCall := if parts.fieldNames.isEmpty then [] else parts.getCalls
    registerCall := .of traitType }

/-- `service_impl`; `parse` is `syn::parse2::<Type>`. -/
def serviceImpl (parse : TokenStream → Except String Ty) (attr : TokenStream) :
    Item → Except String ServiceExpansion
  | .struct structDef => do
    if attr.isEmpty then serviceStruct structDef none
    else match parse attr with
      | .ok ty => serviceStruct structDef (some ty)
      | .error e => .error ("Failed to parse service trait type: " ++ e)
  | .other => .error "#[service] can only be used on structs"

/-! ## The walk over the fields -/

def DependencyId.ofInner (inner : Ty) : DependencyId :=
  if isTraitObject inner then .traitObjectTypeId inner else .typeIdOf inner

def GetCall.ofInner (inner : Ty) : GetCall :=
  if isTraitObject inner then .getTrait inner else .get inner

theorem FieldParts.push_eq (parts : FieldParts) (field : NamedField) :
    parts.push field = match extractArcInner field.ty with
      | none => .error "Fields in #[service] structs must be typed as Arc<T>"
      | some inner => .ok
        { fieldNames := parts.fieldNames ++ [field.ident]
          fieldTypes := parts.fieldTypes ++ [field.ty]
          dependencyIds := parts.dependencyIds ++ [.ofInner inner]
          getCalls := parts.getCalls ++ [.ofInner inner] } := by
  unfold push
  cases extractArcInner field.ty with
  | none => rfl
  | some inner =>
    by_cases h : isTraitObject inner = true <;>
      simp [h, DependencyId.ofInner, GetCall.ofInner]

/-- The types under the `Arc`s, if there is one in every field. -/
def inners (fields : List NamedField) : Option (List Ty) :=
  fields.mapM fun field => extractArcInner field.ty

/-- **The vectors stay in step**, or the walk ends with an error. -/
theorem foldlM_push (fields : List NamedField) (parts : FieldParts) :
    fields.foldlM FieldParts.push parts = match inners fields with
      | none => .error "Fields in #[service] structs must be typed as Arc<T>"
      | some inners => .ok
        { fieldNames := parts.fieldNames ++ fields.map (·.ident)
          fieldTypes := parts.fieldTypes ++ fields.map (·.ty)
          dependencyIds := parts.dependencyIds ++ inners.map .ofInner
          getCalls := parts.getCalls ++ inners.map .ofInner } := by
  induction fields generalizing parts with
  | nil => simp [inners, pure, Except.pure]
  | cons field fields ih =>
    rw [List.foldlM_cons, FieldParts.push_eq, inners, List.mapM_cons]
    cases hinner : extractArcInner field.ty with
    | none => rfl
    | some inner =>
      show fields.foldlM FieldParts.push _ = _
      rw [ih, inners]
      cases fields.mapM fun field => extractArcInner field.ty with
      | none => rfl
      | some inners => simp

/-- A field's type is a path that ends in `Arc<inner, ..>`. -/
def IsArc (ty inner : Ty) : Prop :=
  ∃ qself leadingColon segments args,
    ty = .path qself leadingColon (segments ++ [.mk "Arc" (.angleBracketed (.type inner :: args))])

theorem extractArcInner_eq_some {ty inner : Ty} :
    extractArcInner ty = some inner ↔ IsArc ty inner := by
  constructor
  · intro h
    unfold extractArcInner at h
    split at h
    · rename_i inner' args hargs
      cases h
      obtain ⟨qself, leadingColon, segments, rfl⟩ := Ty.wrapperArgs_eq_some.mp hargs
      exact ⟨qself, leadingColon, segments, args, rfl⟩
    · cases h
  · rintro ⟨qself, leadingColon, segments, args, rfl⟩
    rw [extractArcInner, Ty.wrapperArgs_eq_some.mpr ⟨qself, leadingColon, segments, rfl⟩]

def ItemStruct.namedFields (structDef : ItemStruct) : List NamedField :=
  match structDef.fields with
  | .named fields => fields
  | _ => []

def ItemStruct.IsTuple (structDef : ItemStruct) : Prop :=
  ∃ fields, structDef.fields = .unnamed fields

/-- **What an accepted struct expands to.** Only named fields are looked at: a tuple struct is
refused, a unit struct has none. -/
theorem serviceStruct_ok {structDef : ItemStruct} {traitType : Option Ty}
    {expansion : ServiceExpansion} (h : serviceStruct structDef traitType = .ok expansion) :
    ∃ types, inners structDef.namedFields = some types ∧
      expansion =
        { structDef := reconstructed structDef
          newParams := structDef.namedFields.map fun field => (field.ident, field.ty)
          constructorBody := if structDef.namedFields.isEmpty then .unit
            else .fields (structDef.namedFields.map (·.ident))
          dependencyIds := types.map .ofInner
          newCall := types.map .ofInner
          registerCall := .of traitType } := by
  unfold serviceStruct at h
  unfold ItemStruct.namedFields
  cases hfields : structDef.fields with
  | named fields =>
    rw [hfields, fieldParts, foldlM_push] at h
    cases htypes : inners fields with
    | none =>
      rw [htypes] at h
      cases h
    | some types =>
      rw [htypes] at h
      cases h
      refine ⟨types, rfl, ?_⟩
      cases fields with
      | nil =>
        cases htypes
        rfl
      | cons field fields => simp [FieldParts.empty, List.zip_map']
  | unnamed fields =>
    rw [hfields] at h
    cases h
  | unit =>
    rw [hfields] at h
    cases h
    exact ⟨[], rfl, rfl⟩

/-- One field after the other, until one is not an `Arc`. -/
theorem inners_eq_some {fields : List NamedField} {types : List Ty} :
    inners fields = some types ↔
      List.Forall₂ (fun field inner => IsArc field.ty inner) fields types := by
  rw [inners]
  induction fields generalizing types with
  | nil =>
    constructor
    · intro h
      cases h
      exact .nil
    · intro h
      cases h
      rfl
  | cons field fields ih =>
    rw [List.mapM_cons]
    constructor
    · intro h
      obtain ⟨inner, hinner, h⟩ := Option.bind_eq_some_iff.mp h
      obtain ⟨rest, hrest, h⟩ := Option.bind_eq_some_iff.mp h
      cases h
      exact .cons (extractArcInner_eq_some.mp hinner) (ih.mp hrest)
    · intro h
      cases h with
      | cons hinner hrest =>
        rw [extractArcInner_eq_some.mpr hinner, ih.mpr hrest]
        rfl

theorem inners_eq_none {fields : List NamedField} :
    inners fields = none ↔ ∃ field ∈ fields, ¬ ∃ inner, IsArc field.ty inner := by
  simp only [← extractArcInner_eq_some]
  rw [inners]
  induction fields with
  | nil => simp
  | cons field fields ih =>
    rw [List.mapM_cons]
    cases hinner : extractArcInner field.ty with
    | none => simp [hinner]
    | some inner =>
      cases hrest : fields.mapM fun field => extractArcInner field.ty with
      | none => simpa [hinner, hrest] using ih
      | some rest => simpa [hinner, hrest] using ih

theorem serviceStruct_error_iff (structDef : ItemStruct) (traitType : Option Ty) :
    (∃ message, serviceStruct structDef traitType = .error message) ↔
      structDef.IsTuple ∨
        ∃ field ∈ structDef.namedFields, ¬ ∃ inner, IsArc field.ty inner := by
  rw [← inners_eq_none]
  unfold serviceStruct ItemStruct.IsTuple ItemStruct.namedFields
  cases structDef.fields with
  | named fields =>
    rw [fieldParts, foldlM_push]
    cases inners fields <;> simp [bind, Except.bind, pure, Except.pure]
  | unnamed fields => simp [fieldParts, bind, Except.bind]
  | unit => simp [fieldParts, inners, bind, Except.bind, pure, Except.pure]

/-! ## The struct that comes back -/

theorem serviceImpl_ok {parse : TokenStream → Except String Ty} {attr : TokenStream}
    {structDef : ItemStruct} {expansion : ServiceExpansion}
    (h : serviceImpl parse attr (.struct structDef) = .ok expansion) :
    ∃ traitType, serviceStruct structDef traitType = .ok expansion := by
  rw [serviceImpl] at h
  split at h
  · exact ⟨none, h⟩
  · cases hty : parse attr with
    | ok ty =>
      rw [hty] at h
      exact ⟨some ty, h⟩
    | error e =>
      rw [hty] at h
      cases h

def Generics.LifetimesFirst (generics : Generics) : Prop :=
  generics.params.Pairwise fun earlier later => later.isLifetime → earlier.isLifetime

theorem filter_append_filter_not_eq_self {α : Type} (p : α → Bool) (l : List α) :
    l.filter p ++ l.filter (!p ·) = l ↔ l.Pairwise fun earlier later => p later → p earlier := by
  induction l with
  | nil => simp
  | cons a l ih =>
    rw [List.pairwise_cons, ← ih]
    cases ha : p a with
    | true => simp [ha]
    | false =>
      rw [List.filter_cons_of_neg (by simp [ha]), List.filter_cons_of_pos (by simp [ha])]
      constructor
      · intro h
        cases hl : l.filter p with
        | nil =>
          have hnone : ∀ b ∈ l, p b → p a := fun b hb hp =>
            absurd hp (List.filter_eq_nil_iff.mp hl b hb)
          rw [hl] at h
          exact ⟨by simpa [ha] using hnone, (List.cons.inj h).2⟩
        | cons b rest =>
          -- what is printed first is a lifetime, and `a` is none
          rw [hl] at h
          obtain ⟨rfl, -⟩ := List.cons.inj h
          have hb : b ∈ l.filter p := hl ▸ List.mem_cons_self
          rw [List.mem_filter, ha] at hb
          cases hb.2
      · rintro ⟨hnone, h⟩
        have hl : l.filter p = [] :=
          List.filter_eq_nil_iff.mpr fun b hb hp => absurd (hnone b hb hp) (by simp)
        rw [hl] at h ⊢
        exact congrArg (a :: ·) h

theorem Generics.quoted_eq_self (generics : Generics) :
    generics.quoted = generics ↔ generics.wherePredicates = [] ∧ generics.LifetimesFirst := by
  obtain ⟨params, wherePredicates⟩ := generics
  rw [LifetimesFirst, ← filter_append_filter_not_eq_self]
  simp [quoted, and_comm, eq_comm]

/-- **The struct comes back as it was written** exactly when there is nothing to it that the macro
does not write down again as it stood: attributes, a where-clause, a lifetime after a type. -/
theorem reconstructed_eq_iff {parse : TokenStream → Except String Ty} {attr : TokenStream}
    {structDef : ItemStruct} {expansion : ServiceExpansion}
    (h : serviceImpl parse attr (.struct structDef) = .ok expansion) :
    expansion.structDef = structDef ↔
      structDef.attrs = [] ∧ structDef.generics.wherePredicates = [] ∧
        structDef.generics.LifetimesFirst := by
  obtain ⟨traitType, hok⟩ := serviceImpl_ok h
  obtain ⟨types, -, rfl⟩ := serviceStruct_ok hok
  obtain ⟨attrs, vis, ident, generics, fields⟩ := structDef
  rw [← Generics.quoted_eq_self]
  simp [reconstructed, eq_comm]

/-- `pub struct Widget;`, with its attributes -/
def widget (attrs : List TokenStream) : ItemStruct :=
  { attrs, vis := [.ident "pub"], ident := "Widget", generics := ⟨[], []⟩, fields := .unit }

theorem widget_kept : ∃ expansion,
    serviceImpl (fun _ => .error "no type") [] (.struct (widget [])) = .ok expansion ∧
      expansion.structDef = widget [] := by
  obtain ⟨expansion, h⟩ : ∃ expansion,
      serviceImpl (fun _ => .error "no type") [] (.struct (widget [])) = .ok expansion := ⟨_, rfl⟩
  exact ⟨expansion, h, (reconstructed_eq_iff h).mpr ⟨rfl, rfl, .nil⟩⟩

/-- `#[derive(Clone)]` is gone. -/
theorem widget_derive_dropped : ∃ expansion,
    serviceImpl (fun _ => .error "no type") []
        (.struct (widget [[.ident "derive", .group .parenthesis [.ident "Clone"]]])) =
      .ok expansion ∧
      expansion.structDef ≠ widget [[.ident "derive", .group .parenthesis [.ident "Clone"]]] :=
  ⟨_, rfl, fun h => nomatch congrArg ItemStruct.attrs h⟩

end Macros
end StanoPlatform
