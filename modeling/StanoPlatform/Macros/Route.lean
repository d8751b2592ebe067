import StanoPlatform.Macros.AttrKeys
import StanoPlatform.Macros.Placeholders

/-!
# `Macros/Route.lean` — what a route macro makes of its attribute

`#[get(..)]` and its siblings write the `#[utoipa::path(..)]` a handler would otherwise carry by
hand: some of it inferred from the signature, the rest taken from the attribute. Three keys may
come from both sides and are merged; the others are passed through.

What `syn`, `quote` and `proc_macro2` do with a type or a literal is not the platform's
(`Toolkit`). A failed expansion is the message of its `compile_error!`.

From `route_method_fn` and the functions it calls in `stano-route-macros/src/lib.rs`. The lookup of
the crate's own name in `Cargo.toml`, the spans of errors and the text of `inventory::submit!` are
left out. The handler's item is the part of `syn::ItemFn` that is looked at.
-/

set_option autoImplicit false

namespace StanoPlatform
namespace Macros

/-- What the macros use of their libraries. -/
structure Toolkit where
  -- `#ty` in a `quote!`
  quote : Ty → TokenStream
  -- `tokens.to_string()`
  display : TokenStream → List Char
  -- `syn::parse_str::<LitStr>(..).ok()`, and its value
  parseLitStr : String → Option (List Char)
  -- `Literal::string(..)`
  string : List Char → String

inductive HttpMethod where
  | get
  | post
  | put
  | delete
  | patch
  deriving DecidableEq, Repr

def HttpMethod.name : HttpMethod → String
  | get => "get"
  | post => "post"
  | put => "put"
  | delete => "delete"
  | patch => "patch"

inductive FnArg where
  | receiver
  | typed (ty : Ty)

/-- `syn::ItemFn`: its signature, and all of it, which goes back out as it came. -/
structure ItemFn where
  ident : String
  inputs : List FnArg
  -- `none` is no return type
  output : Option Ty
  tokens : TokenStream

/-! ## Attribute keys -/

def groupInnerTokens : TokenStream → Option TokenStream
  | [_, .group _ stream] => some stream
  | _ => none

/-- `200`, and letters after it. -/
def literalIs200 (lit : String) : Bool :=
  match lit.toList with
  | '2' :: '0' :: '0' :: rest => rest.all Char.isAlpha
  | _ => false

def entryHasStatus200 : TokenTree → Bool
  | .group .parenthesis stream =>
    (splitTopLevelKeys stream).any fun key =>
      key.name == "status" && key.tokens.any fun tt =>
        match tt with
        | .literal lit => literalIs200 lit
        | _ => false
  | _ => false

/-! ## Signature inspection -/

def extractTypeArg (ty : Ty) (wrapper : String) : Option Ty :=
  match ty.wrapperArgs wrapper with
  | some [.type t] => some t
  | _ => none

def extractResultOkArg (ty : Ty) : Option Ty :=
  match ty.wrapperArgs "Result" with
  | some (.type t :: _) => some t
  | _ => none

def primitivePathParamTypes : List String :=
  ["String", "bool", "char", "i8", "i16", "i32", "i64", "i128", "isize", "u8", "u16", "u32",
    "u64", "u128", "usize", "f32", "f64"]

def PathArguments.isEmpty : PathArguments → Bool
  | none => true
  | angleBracketed args => args.isEmpty
  | parenthesized _ => false

def isPrimitivePathParamType : Ty → Bool
  | .path _ _ [segment] =>
    segment.arguments.isEmpty &&
      (primitivePathParamTypes.contains segment.ident ||
        "Id".toList.isSuffixOf segment.ident.toList)
  | _ => false

def TokenTree.literal? : TokenTree → Option String
  | literal text => some text
  | _ => none

/-- The first literal of the `path` chunk, if it is a string. -/
def findPathLiteral (kit : Toolkit) (keys : List AttrKey) : Option (List Char) := do
  let pathKey ← keys.find? (·.name = "path")
  let lit ← pathKey.tokens.findSome? TokenTree.literal?
  kit.parseLitStr lit

structure SignatureInference where
  appJsonTypes : List Ty
  appPathType : Option Ty
  appPathCount : Nat
  appQueryType : Option Ty
  appQueryCount : Nat

def SignatureInference.visit (sig : SignatureInference) : FnArg → SignatureInference
  | .receiver => sig
  | .typed ty =>
    let sig := match extractTypeArg ty "AppJson" with
      | some inner => { sig with appJsonTypes := sig.appJsonTypes ++ [inner] }
      | none => sig
    let sig := match extractTypeArg ty "AppPath" with
      | some inner => { sig with
          appPathCount := sig.appPathCount + 1
          -- `get_or_insert`
          appPathType := some (sig.appPathType.getD inner) }
      | none => sig
    match extractTypeArg ty "AppQuery" with
      | some inner => { sig with
          appQueryCount := sig.appQueryCount + 1
          appQueryType := some (sig.appQueryType.getD inner) }
      | none => sig

def inspectSignature (func : ItemFn) : SignatureInference :=
  func.inputs.foldl SignatureInference.visit ⟨[], none, 0, none, 0⟩

def inferredResponseBody : Option Ty → Option Ty
  | none => none
  | some ty =>
    match extractTypeArg ty "AppJson" with
    | some inner => some inner
    | none => do
      let okTy ← extractResultOkArg ty
      extractTypeArg okTy "AppJson"

/-! ## Expansion -/

/-- `#(#parts),*` -/
def commaJoin (parts : List TokenStream) : TokenStream := [TokenTree.punct ','].intercalate parts

def normalize (kit : Toolkit) (tokens : TokenStream) : List Char :=
  (kit.display tokens).filter (· ≠ ' ')

def checkSignature (method : HttpMethod) (sig : SignatureInference) : Except String Unit :=
  if sig.appJsonTypes.length > 1 then
    .error ("#[" ++ method.name ++ "]: found more than one AppJson<_> parameter; a handler can " ++
      "only take one request body")
  else if sig.appPathCount > 1 then
    .error ("#[" ++ method.name ++ "]: found more than one AppPath<_> parameter; combine " ++
      "multiple path segments into one #[derive(utoipa::IntoParams)] struct")
  else if sig.appQueryCount > 1 then
    .error ("#[" ++ method.name ++ "]: found more than one AppQuery<_> parameter; combine " ++
      "multiple query fields into one #[derive(utoipa::IntoParams)] struct")
  else .ok ()

/-- `request_body = #inferred` -/
def inferredRequestBody (kit : Toolkit) (inferred : Ty) : TokenStream :=
  .ident "request_body" :: .punct '=' :: kit.quote inferred

def requestBodyTokens (kit : Toolkit) (method : HttpMethod) (keys : List AttrKey)
    (sig : SignatureInference) : Except String (Option TokenStream) :=
  match keys.find? (·.name = "request_body"), sig.appJsonTypes.head? with
  | some explicit, some inferred =>
    -- skip `request_body` `=`
    let explicitNorm := normalize kit (explicit.tokens.drop 2)
    let inferredNorm := normalize kit (kit.quote inferred)
    if explicitNorm ≠ inferredNorm then
      .error ("#[" ++ method.name ++ "]: request_body = " ++ .ofList explicitNorm ++
        " conflicts with inferred AppJson<" ++ .ofList inferredNorm ++
        "> parameter type; remove one")
    else .ok (some (inferredRequestBody kit inferred))
  | some explicit, none => .ok (some explicit.tokens)
  | none, some inferred => .ok (some (inferredRequestBody kit inferred))
  | none, none => .ok none

/-- `(status = 200, body = #body)` -/
def inferredEntry (kit : Toolkit) (body : Ty) : TokenTree :=
  .group .parenthesis (.ident "status" :: .punct '=' :: .literal "200" :: .punct ',' ::
    .ident "body" :: .punct '=' :: kit.quote body)

/-- What stands between the parentheses of the first `key(..)` of a name. -/
def explicitInner (keys : List AttrKey) (name : String) : Option TokenStream := do
  let key ← keys.find? (·.name = name)
  groupInnerTokens key.tokens

def conflictsWith200 (inner : TokenStream) : Bool :=
  ((splitTopLevelKeys inner).flatMap (·.tokens)).any entryHasStatus200

def conflictMessage (method : HttpMethod) (fnName : String) : String :=
  "#[" ++ method.name ++ "] fn " ++ fnName ++ ": inferred 200 response from the return type " ++
    "conflicts with an explicit `(status = 200, ...)` entry in `responses(...)`; the 200 case " ++
    "is always inferred from the return type — remove it from `responses(...)` and keep only " ++
    "error-case entries there."

def responsesTokens (kit : Toolkit) (method : HttpMethod) (fnName : String)
    (keys : List AttrKey) (output : Option Ty) : Except String TokenStream :=
  match inferredResponseBody output, explicitInner keys "responses" with
  | some body, some rest =>
    if conflictsWith200 rest then .error (conflictMessage method fnName)
    else .ok [.ident "responses",
      .group .parenthesis (inferredEntry kit body :: .punct ',' :: rest)]
  | some body, none =>
    .ok [.ident "responses", .group .parenthesis [inferredEntry kit body]]
  | none, some rest => .ok [.ident "responses", .group .parenthesis rest]
  | none, none =>
    .error ("#[" ++ method.name ++ "] fn " ++ fnName ++ ": cannot infer a 200 response (return " ++
      "type is not AppJson<_> or Result<AppJson<_>, _>) and no explicit responses(...) was " ++
      "provided; add responses((status = 200, body = ...)) or change the return type to " ++
      "AppJson<_>.")

/-- The parameters the signature has, path before query. -/
def inferredParams (kit : Toolkit) (keys : List AttrKey) (sig : SignatureInference) :
    List TokenStream :=
  -- no literal, no placeholders; `pathPlaceholders` always returns
  let placeholders := ((findPathLiteral kit keys).bind pathPlaceholders).getD []
  let ofPath := match sig.appPathType with
    | some pathTy =>
      match placeholders with
      | [name] =>
        if isPrimitivePathParamType pathTy then
          [[.group .parenthesis (.literal (kit.string name) :: .punct '=' ::
            (kit.quote pathTy ++ [.punct ',', .ident "Path"]))]]
        else [kit.quote pathTy]
      | _ => [kit.quote pathTy]
    | none => []
  let ofQuery := match sig.appQueryType with
    | some queryTy => [kit.quote queryTy]
    | none => []
  ofPath ++ ofQuery

def paramsTokens (kit : Toolkit) (keys : List AttrKey) (sig : SignatureInference) :
    Option TokenStream :=
  let inferred := inferredParams kit keys sig
  match inferred.isEmpty, explicitInner keys "params" with
  | true, none => none
  | true, some rest => some [.ident "params", .group .parenthesis rest]
  | false, none => some [.ident "params", .group .parenthesis (commaJoin inferred)]
  | false, some rest =>
    some [.ident "params", .group .parenthesis (commaJoin inferred ++ .punct ',' :: rest)]

/-- The keys that may come from both sides. -/
def mergedKeys : List String := ["request_body", "responses", "params"]

def passThrough (keys : List AttrKey) : List TokenStream :=
  (keys.filter fun key => !mergedKeys.contains key.name).map (·.tokens)

/-- What is generated: the arguments of `#[utoipa::path(..)]`, the function under it, and the
function whose route is submitted. -/
structure Expansion where
  pathArgs : List TokenStream
  func : ItemFn
  registered : String

def routeMethodFn (kit : Toolkit) (method : HttpMethod) (attr : TokenStream) (func : ItemFn) :
    Except String Expansion := do
  let keys := splitTopLevelKeys attr
  let sig := inspectSignature func
  checkSignature method sig
  let requestBody ← requestBodyTokens kit method keys sig
  let responses ← responsesTokens kit method func.ident keys func.output
  let params := paramsTokens kit keys sig
  let operationId := .literal (kit.string func.ident.toList)
  return {
    pathArgs := [[.ident method.name], [.ident "operation_id", .punct '=', operationId]] ++
      passThrough keys ++ requestBody.toList ++ [responses] ++ params.toList
    func
    registered := func.ident }

/-- The libraries on names and on literals without escapes. -/
def plainKit : Toolkit where
  quote := fun ty =>
    match ty with
    | .path none false [.mk ident .none] => [.ident ident]
    | .other tokens => tokens
    | _ => []
  display := fun tokens => tokens.flatMap fun tt =>
    match tt with
    | .ident name => name.toList ++ [' ']
    | .punct char => [char, ' ']
    | .literal text => text.toList ++ [' ']
    | .group _ _ => []
  parseLitStr := fun lit =>
    match lit.toList with
    | '"' :: rest => some rest.dropLast
    | _ => none
  string := fun text => .ofList ('"' :: (text ++ ['"']))

end Macros
end StanoPlatform
