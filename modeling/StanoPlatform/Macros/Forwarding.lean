import StanoPlatform.Macros.Route

/-!
# `Macros/Forwarding.lean` — what becomes of the chunks a user wrote

Two views of one attribute have to agree. The pass-through filter takes out every chunk with a
merged name; the merge looks at the first chunk of a name only, and at that one only if it is
written `key(..)`. What falls between the two is lost without a word.

So the generated list is first put in one form — the macro's own parts, then what it read of the
attribute (`Carries`) — and what it read is compared with what was written (`ReadWhole`).

From `route_method_fn` in `stano-route-macros/src/lib.rs`. What was written is taken by the macro's
own cutting into chunks, the one of `Macros/AttrKeys.lean`: the file is about what becomes of the
chunks, not about whether they are cut where the user meant it.
-/

set_option autoImplicit false

namespace StanoPlatform
namespace Macros

/-- The chunks of a name, in order. -/
def chunksNamed (attr : TokenStream) (name : String) : List TokenStream :=
  ((splitTopLevelKeys attr).filter (·.name = name)).map (·.tokens)

/-- The value of a chunk that is not `key(..)`. -/
def writtenValue : TokenStream → TokenStream
  | _ :: .punct '=' :: value => value
  | _ :: value => value
  | [] => []

/-- The entries a chunk has: those of its parentheses, or its value. -/
def chunkEntries (chunk : TokenStream) : List TokenStream :=
  match groupInnerTokens chunk with
  | some inner => (splitTopLevelKeys inner).map (·.tokens)
  | none => nonEmpty [writtenValue chunk]

def explicitEntries (attr : TokenStream) (name : String) : List TokenStream :=
  (chunksNamed attr name).flatMap chunkEntries

def argsNamed (args : List TokenStream) (name : String) : List TokenStream :=
  args.filter fun arg => (buildAttrKey arg).name = name

/-- The argument `name(..)` holds the macro's own parts, and after them a stream of just the
explicit entries; without either it may be missing. -/
def Carries (name : String) (inferred entries args : List TokenStream) : Prop :=
  (args = [] ∧ inferred = [] ∧ entries = []) ∨
  ∃ rest : Option TokenStream,
    args = [[.ident name, .group .parenthesis (commaJoin (inferred ++ rest.toList))]] ∧
    ((rest.toList).flatMap fun rest => (splitTopLevelKeys rest).map (·.tokens)) = entries

/-- A chunk is there as it was, or as the type of the parameter it was checked to agree with. -/
def BodyKept (kit : Toolkit) (sig : SignatureInference) (arg chunk : TokenStream) : Prop :=
  arg = chunk ∨ ∃ ty ∈ sig.appJsonTypes, arg = inferredRequestBody kit ty ∧
    normalize kit (chunk.drop 2) = normalize kit (kit.quote ty)

def inferredResponses (kit : Toolkit) (output : Option Ty) : List TokenStream :=
  (inferredResponseBody output).toList.map fun body => [inferredEntry kit body]

/-- Every chunk reappears. -/
structure NothingLost (kit : Toolkit) (attr : TokenStream) (func : ItemFn)
    (expansion : Expansion) : Prop where
  passThrough : passThrough (splitTopLevelKeys attr) <:+: expansion.pathArgs
  requestBody : chunksNamed attr "request_body" = [] ∨
    List.Forall₂ (BodyKept kit (inspectSignature func))
      (argsNamed expansion.pathArgs "request_body") (chunksNamed attr "request_body")
  responses : Carries "responses" (inferredResponses kit func.output)
    (explicitEntries attr "responses") (argsNamed expansion.pathArgs "responses")
  params : Carries "params"
    (inferredParams kit (splitTopLevelKeys attr) (inspectSignature func))
    (explicitEntries attr "params") (argsNamed expansion.pathArgs "params")

/-- Of the chunks of a name only the first has entries, and that one is written `key(..)`. -/
def ReadWhole : List TokenStream → Prop
  | [] => True
  | first :: later =>
    (groupInnerTokens first = none → chunkEntries first = []) ∧
      ∀ chunk ∈ later, chunkEntries chunk = []

/-! ## The expansion, in parts -/

/-- **What an expansion is made of.** Three steps may fail, and none did. -/
theorem routeMethodFn_ok {kit : Toolkit} {method : HttpMethod} {attr : TokenStream}
    {func : ItemFn} {expansion : Expansion}
    (h : routeMethodFn kit method attr func = .ok expansion) :
    ∃ requestBody responses,
      checkSignature method (inspectSignature func) = .ok () ∧
      requestBodyTokens kit method (splitTopLevelKeys attr) (inspectSignature func) =
        .ok requestBody ∧
      responsesTokens kit method func.ident (splitTopLevelKeys attr) func.output =
        .ok responses ∧
      expansion.pathArgs = [[.ident method.name], [.ident "operation_id", .punct '=',
          .literal (kit.string func.ident.toList)]] ++ passThrough (splitTopLevelKeys attr) ++
        requestBody.toList ++ [responses] ++
        (paramsTokens kit (splitTopLevelKeys attr) (inspectSignature func)).toList := by
  unfold routeMethodFn at h
  cases hsig : checkSignature method (inspectSignature func) with
  | error message =>
    simp only [hsig, bind, Except.bind] at h
    cases h
  | ok _ =>
    cases hbody : requestBodyTokens kit method (splitTopLevelKeys attr) (inspectSignature func) with
    | error message =>
      simp only [hsig, hbody, bind, Except.bind] at h
      cases h
    | ok requestBody =>
      cases hresponses : responsesTokens kit method func.ident (splitTopLevelKeys attr)
          func.output with
      | error message =>
        simp only [hsig, hbody, hresponses, bind, Except.bind] at h
        cases h
      | ok responses =>
        simp only [hsig, hbody, hresponses, bind, Except.bind, pure, Except.pure] at h
        cases h
        exact ⟨requestBody, responses, rfl, rfl, rfl, rfl⟩

theorem eq_buildAttrKey {attr : TokenStream} {key : AttrKey} (h : key ∈ splitTopLevelKeys attr) :
    key = buildAttrKey key.tokens := by
  rw [splitTopLevelKeys_eq, List.mem_map] at h
  obtain ⟨piece, -, rfl⟩ := h
  rfl

theorem argsNamed_append (args more : List TokenStream) (name : String) :
    argsNamed (args ++ more) name = argsNamed args name ++ argsNamed more name := by
  rw [argsNamed, argsNamed, argsNamed, List.filter_append]

theorem argsNamed_eq_self {args : List TokenStream} {name : String}
    (h : ∀ arg ∈ args, (buildAttrKey arg).name = name) : argsNamed args name = args :=
  List.filter_eq_self.mpr fun arg harg => decide_eq_true (h arg harg)

theorem argsNamed_eq_nil {args : List TokenStream} {name : String}
    (h : ∀ arg ∈ args, (buildAttrKey arg).name ≠ name) : argsNamed args name = [] :=
  List.filter_eq_nil_iff.mpr fun arg harg => by simpa using h arg harg

theorem argsNamed_passThrough {attr : TokenStream} {name : String} (h : name ∈ mergedKeys) :
    argsNamed (passThrough (splitTopLevelKeys attr)) name = [] := by
  refine argsNamed_eq_nil fun arg harg hname => ?_
  obtain ⟨key, hkey, rfl⟩ := List.mem_map.mp harg
  obtain ⟨hmem, hnot⟩ := List.mem_filter.mp hkey
  rw [← eq_buildAttrKey hmem] at hname
  subst hname
  simp [h] at hnot

/-- The first chunk of a name, and its parentheses. -/
theorem find?_named (attr : TokenStream) (name : String) :
    ((splitTopLevelKeys attr).find? (·.name = name)).map (·.tokens) =
      (chunksNamed attr name).head? := by
  rw [chunksNamed, List.head?_map, List.head?_filter]

theorem explicitInner_eq (attr : TokenStream) (name : String) :
    explicitInner (splitTopLevelKeys attr) name =
      (chunksNamed attr name).head?.bind groupInnerTokens := by
  rw [← find?_named, explicitInner]
  cases (splitTopLevelKeys attr).find? (·.name = name) <;> rfl

theorem responsesTokens_ok {kit : Toolkit} {method : HttpMethod} {fnName : String}
    {keys : List AttrKey} {output : Option Ty} {responses : TokenStream}
    (h : responsesTokens kit method fnName keys output = .ok responses) :
    responses = [.ident "responses", .group .parenthesis
      (commaJoin (inferredResponses kit output ++ (explicitInner keys "responses").toList))] := by
  unfold responsesTokens at h
  split at h
  · rename_i body rest hbody hrest
    split at h
    · cases h
    · cases h
      rw [inferredResponses, hbody, hrest]
      simp [commaJoin, List.intercalate_cons_cons, List.intercalate_singleton]
  · rename_i body hbody hrest
    cases h
    rw [inferredResponses, hbody, hrest]
    simp [commaJoin, List.intercalate_singleton]
  · rename_i rest hbody hrest
    cases h
    rw [inferredResponses, hbody, hrest]
    simp [commaJoin, List.intercalate_singleton]
  · cases h

theorem commaJoin_append_singleton {parts : List TokenStream} (h : parts ≠ [])
    (rest : TokenStream) : commaJoin (parts ++ [rest]) = commaJoin parts ++ .punct ',' :: rest := by
  induction parts with
  | nil => exact absurd rfl h
  | cons part parts ih =>
    cases parts with
    | nil => simp [commaJoin, List.intercalate_cons_cons, List.intercalate_singleton]
    | cons next parts =>
      have hnext := ih (List.cons_ne_nil _ _)
      simp only [commaJoin, List.cons_append] at hnext ⊢
      rw [List.intercalate_cons_cons, List.intercalate_cons_cons, hnext, List.append_assoc,
        List.append_assoc, List.append_assoc]

theorem paramsTokens_eq (kit : Toolkit) (keys : List AttrKey) (sig : SignatureInference) :
    paramsTokens kit keys sig =
      if inferredParams kit keys sig = [] ∧ explicitInner keys "params" = none then none
      else some [.ident "params", .group .parenthesis
        (commaJoin (inferredParams kit keys sig ++ (explicitInner keys "params").toList))] := by
  unfold paramsTokens
  cases hinferred : inferredParams kit keys sig with
  | nil =>
    cases explicitInner keys "params" with
    | none => simp
    | some rest => simp [commaJoin, List.intercalate_singleton]
  | cons part parts =>
    cases explicitInner keys "params" with
    | none => simp
    | some rest =>
      rw [if_neg (by simp), Option.toList_some, commaJoin_append_singleton (List.cons_ne_nil _ _)]
      rfl

/-- An explicit body has to agree with the inferred one, if there is one, and is kept as it is if
there is none. -/
theorem requestBodyTokens_ok {kit : Toolkit} {method : HttpMethod} {attr : TokenStream}
    {sig : SignatureInference} {requestBody : Option TokenStream}
    (h : requestBodyTokens kit method (splitTopLevelKeys attr) sig = .ok requestBody) :
    match (chunksNamed attr "request_body").head? with
    | some chunk => ∃ arg, requestBody = some arg ∧ BodyKept kit sig arg chunk
    | none => requestBody = sig.appJsonTypes.head?.map (inferredRequestBody kit) := by
  rw [← find?_named]
  unfold requestBodyTokens at h
  split at h
  · rename_i explicit ty hexplicit hty
    rw [hexplicit]
    simp only at h
    split at h
    · cases h
    · rename_i hagree
      cases h
      exact ⟨_, rfl, .inr ⟨ty, List.mem_of_head? hty, rfl, not_not.mp hagree⟩⟩
  · rename_i explicit hexplicit hty
    rw [hexplicit]
    cases h
    exact ⟨_, rfl, .inl rfl⟩
  · rename_i ty hexplicit hty
    rw [hexplicit, hty]
    cases h
    rfl
  · rename_i hexplicit hty
    rw [hexplicit, hty]
    cases h
    rfl

theorem name_of_mem_chunksNamed {attr chunk : TokenStream} {name : String}
    (h : chunk ∈ chunksNamed attr name) : (buildAttrKey chunk).name = name := by
  obtain ⟨key, hkey, rfl⟩ := List.mem_map.mp h
  obtain ⟨hmem, hname⟩ := List.mem_filter.mp hkey
  rw [← eq_buildAttrKey hmem]
  exact of_decide_eq_true hname

theorem BodyKept.name {kit : Toolkit} {sig : SignatureInference} {attr arg chunk : TokenStream}
    (h : BodyKept kit sig arg chunk) (hchunk : chunk ∈ chunksNamed attr "request_body") :
    (buildAttrKey arg).name = "request_body" := by
  rcases h with rfl | ⟨ty, -, rfl, -⟩
  · exact name_of_mem_chunksNamed hchunk
  · rfl

/-! ### The merged arguments, by name -/

/-- What the macro writes first has names of its own. -/
theorem argsNamed_own (method : HttpMethod) (operationId : TokenTree) {name : String}
    (h : name ∈ mergedKeys) :
    argsNamed [[.ident method.name], [.ident "operation_id", .punct '=', operationId]] name =
      [] := by
  refine argsNamed_eq_nil fun arg harg => ?_
  simp only [mergedKeys, List.mem_cons, List.not_mem_nil, or_false] at h harg
  rcases harg with rfl | rfl
  · rcases h with rfl | rfl | rfl <;> cases method <;> decide
  · rcases h with rfl | rfl | rfl <;> simp [buildAttrKey]

theorem name_requestBodyTokens {kit : Toolkit} {method : HttpMethod} {attr : TokenStream}
    {sig : SignatureInference} {requestBody : Option TokenStream}
    (h : requestBodyTokens kit method (splitTopLevelKeys attr) sig = .ok requestBody) :
    ∀ arg ∈ requestBody.toList, (buildAttrKey arg).name = "request_body" := by
  have hcase := requestBodyTokens_ok h
  cases hchunk : (chunksNamed attr "request_body").head? with
  | some chunk =>
    rw [hchunk] at hcase
    obtain ⟨arg, rfl, hkept⟩ := hcase
    simpa using hkept.name (List.mem_of_head? hchunk)
  | none =>
    rw [hchunk] at hcase
    subst hcase
    cases sig.appJsonTypes.head? with
    | none => simp
    | some ty => simp [inferredRequestBody, buildAttrKey]

theorem name_paramsTokens (kit : Toolkit) (keys : List AttrKey) (sig : SignatureInference) :
    ∀ arg ∈ (paramsTokens kit keys sig).toList, (buildAttrKey arg).name = "params" := by
  rw [paramsTokens_eq]
  split <;> simp [buildAttrKey]

/-- **The three merged arguments**, picked out of the list by name. Each argument stands under one
name. -/
theorem argsNamed_pathArgs {kit : Toolkit} {method : HttpMethod} {attr : TokenStream}
    {func : ItemFn} {expansion : Expansion}
    (h : routeMethodFn kit method attr func = .ok expansion) :
    ∃ requestBody, requestBodyTokens kit method (splitTopLevelKeys attr) (inspectSignature func) =
        .ok requestBody ∧
      passThrough (splitTopLevelKeys attr) <:+: expansion.pathArgs ∧
      argsNamed expansion.pathArgs "request_body" = requestBody.toList ∧
      argsNamed expansion.pathArgs "responses" = [[.ident "responses", .group .parenthesis
        (commaJoin (inferredResponses kit func.output ++
          (explicitInner (splitTopLevelKeys attr) "responses").toList))]] ∧
      argsNamed expansion.pathArgs "params" =
        (paramsTokens kit (splitTopLevelKeys attr) (inspectSignature func)).toList := by
  obtain ⟨requestBody, responses, -, hbody, hresponses, hargs⟩ := routeMethodFn_ok h
  have hsplit : ∀ name ∈ mergedKeys, argsNamed expansion.pathArgs name =
      argsNamed requestBody.toList name ++ argsNamed [responses] name ++
        argsNamed (paramsTokens kit (splitTopLevelKeys attr) (inspectSignature func)).toList
          name := by
    intro name hname
    rw [hargs]
    simp only [argsNamed_append, argsNamed_own method _ hname, argsNamed_passThrough hname,
      List.nil_append]
  have hbodyName := name_requestBodyTokens hbody
  have hparamsName := name_paramsTokens kit (splitTopLevelKeys attr) (inspectSignature func)
  have hresponsesName : ∀ arg ∈ [responses], (buildAttrKey arg).name = "responses" := by
    rw [responsesTokens_ok hresponses]
    simp [buildAttrKey]
  have hother : ∀ {args : List TokenStream} {name other : String},
      (∀ arg ∈ args, (buildAttrKey arg).name = other) → other ≠ name → argsNamed args name = [] :=
    fun hargs hne => argsNamed_eq_nil fun arg harg => by rw [hargs arg harg]; exact hne
  refine ⟨requestBody, hbody, ?_, ?_, ?_, ?_⟩
  · rw [hargs]
    exact ⟨_, _, by simp only [List.append_assoc]; rfl⟩
  · rw [hsplit _ (by decide), argsNamed_eq_self hbodyName, hother hresponsesName (by decide),
      hother hparamsName (by decide), List.append_nil, List.append_nil]
  · rw [hsplit _ (by decide), hother hbodyName (by decide), argsNamed_eq_self hresponsesName,
      hother hparamsName (by decide), List.nil_append, List.append_nil,
      responsesTokens_ok hresponses]
  · rw [hsplit _ (by decide), hother hbodyName (by decide), hother hresponsesName (by decide),
      argsNamed_eq_self hparamsName, List.nil_append, List.nil_append]

/-! ## Read and written -/

theorem commaJoin_append_inj {parts : List TokenStream} {rest rest' : Option TokenStream}
    (h : commaJoin (parts ++ rest.toList) = commaJoin (parts ++ rest'.toList)) :
    rest.getD [] = rest'.getD [] := by
  by_cases hparts : parts = []
  · subst hparts
    have hsome : ∀ r : Option TokenStream, commaJoin ([] ++ r.toList) = r.getD [] := by
      intro r
      cases r with
      | none => rfl
      | some r => exact List.intercalate_singleton
    rwa [hsome, hsome] at h
  · have hsome : ∀ r : Option TokenStream, commaJoin (parts ++ r.toList) =
        commaJoin parts ++ (r.elim [] (.punct ',' :: ·)) := by
      intro r
      cases r with
      | none => simp
      | some r => exact commaJoin_append_singleton hparts r
    rw [hsome, hsome, List.append_cancel_left_eq] at h
    cases rest <;> cases rest' <;> simp_all

/-- The entries of a stream that may be missing. -/
def innerEntries (rest : Option TokenStream) : List TokenStream :=
  rest.toList.flatMap fun rest => (splitTopLevelKeys rest).map (·.tokens)

theorem innerEntries_getD (rest : Option TokenStream) :
    innerEntries rest = (splitTopLevelKeys (rest.getD [])).map (·.tokens) := by
  cases rest with
  | none => rfl
  | some rest => exact List.append_nil _

/-- An argument carries the entries of the stream it was written with, and of no other. -/
theorem carries_iff {name : String} {inferred entries : List TokenStream}
    (rest : Option TokenStream) :
    Carries name inferred entries
      [[.ident name, .group .parenthesis (commaJoin (inferred ++ rest.toList))]] ↔
      innerEntries rest = entries := by
  constructor
  · intro h
    rcases h with ⟨hnil, -⟩ | ⟨rest', hargs, hentries⟩
    · cases hnil
    · simp only [List.cons.injEq, TokenTree.group.injEq, and_true, true_and] at hargs
      rw [innerEntries_getD, commaJoin_append_inj hargs, ← innerEntries_getD]
      exact hentries
  · intro h
    exact .inr ⟨rest, rfl, h⟩

theorem carries_nil_iff {name : String} {entries : List TokenStream} :
    Carries name [] entries [] ↔ innerEntries none = entries := by
  constructor
  · intro h
    rcases h with ⟨-, -, rfl⟩ | ⟨rest', hargs, -⟩
    · rfl
    · cases hargs
  · rintro rfl
    exact .inl ⟨rfl, rfl, rfl⟩

/-- **What is read is what is written** exactly when all of it is in the first chunk. -/
theorem readWhole_iff (attr : TokenStream) (name : String) :
    innerEntries (explicitInner (splitTopLevelKeys attr) name) = explicitEntries attr name ↔
      ReadWhole (chunksNamed attr name) := by
  rw [explicitInner_eq, explicitEntries]
  cases chunksNamed attr name with
  | nil => exact ⟨fun _ => trivial, fun _ => rfl⟩
  | cons first later =>
    rw [List.head?_cons, Option.bind_some, List.flatMap_cons, ReadWhole]
    cases hinner : groupInnerTokens first with
    | some inner =>
      have hfirst : chunkEntries first = innerEntries (some inner) := by
        rw [chunkEntries, hinner, innerEntries_getD]
        rfl
      rw [hfirst]
      simp
    | none =>
      have hnil : ∀ l : List TokenStream, [] = l ↔ l = [] := fun l => eq_comm
      simp [innerEntries, hnil]

theorem requestBody_kept_iff {kit : Toolkit} {method : HttpMethod} {attr : TokenStream}
    {sig : SignatureInference} {requestBody : Option TokenStream}
    (h : requestBodyTokens kit method (splitTopLevelKeys attr) sig = .ok requestBody) :
    (chunksNamed attr "request_body" = [] ∨ List.Forall₂ (BodyKept kit sig) requestBody.toList
      (chunksNamed attr "request_body")) ↔ (chunksNamed attr "request_body").length ≤ 1 := by
  have hcase := requestBodyTokens_ok h
  cases hchunks : chunksNamed attr "request_body" with
  | nil => simp
  | cons first later =>
    rw [hchunks, List.head?_cons] at hcase
    obtain ⟨arg, rfl, hkept⟩ := hcase
    cases later with
    | nil => simpa using hkept
    | cons second later =>
      refine ⟨fun hall => ?_, fun hle => absurd hle (by simp)⟩
      rcases hall with hnil | hall
      · cases hnil
      · cases hall with
        | cons _ hrest => cases hrest

theorem carries_params_iff (kit : Toolkit) (attr : TokenStream) (sig : SignatureInference)
    (entries : List TokenStream) :
    Carries "params" (inferredParams kit (splitTopLevelKeys attr) sig) entries
        (paramsTokens kit (splitTopLevelKeys attr) sig).toList ↔
      innerEntries (explicitInner (splitTopLevelKeys attr) "params") = entries := by
  rw [paramsTokens_eq]
  split
  · rename_i hnone
    rw [hnone.1, hnone.2]
    exact carries_nil_iff
  · exact carries_iff _

/-- **Nothing the user wrote is lost** exactly when no merged name is repeated with something in
it, and none of the two that are read by their parentheses is written without. -/
theorem nothingLost_iff_readWhole {kit : Toolkit} {method : HttpMethod} {attr : TokenStream}
    {func : ItemFn} {expansion : Expansion}
    (h : routeMethodFn kit method attr func = .ok expansion) :
    NothingLost kit attr func expansion ↔
      (chunksNamed attr "request_body").length ≤ 1 ∧
        ReadWhole (chunksNamed attr "responses") ∧ ReadWhole (chunksNamed attr "params") := by
  obtain ⟨requestBody, hbody, hpass, hbodyArgs, hresponses, hparams⟩ := argsNamed_pathArgs h
  rw [← requestBody_kept_iff hbody, ← hbodyArgs, ← readWhole_iff attr "responses",
    ← readWhole_iff attr "params", ← carries_iff, ← hresponses, ← carries_params_iff kit, ← hparams]
  exact ⟨fun hkept => ⟨hkept.requestBody, hkept.responses, hkept.params⟩,
    fun ⟨hbody, hresponses, hparams⟩ => ⟨hpass, hbody, hresponses, hparams⟩⟩

/-- `Foo` -/
def fooTy : Ty := .path none false [.mk "Foo" .none]

/-- `async fn list() -> AppJson<Foo>` -/
def listFn : ItemFn :=
  { ident := "list"
    inputs := []
    output := some (.path none false [.mk "AppJson" (.angleBracketed [.type fooTy])])
    tokens := [] }

/-- `(status = ..)` -/
def statusEntry (status : String) : TokenTree :=
  .group .parenthesis [.ident "status", .punct '=', .literal status]

/-- `path = "/foos", responses((status = 404)), responses((status = 500))` -/
def repeatedResponses : TokenStream :=
  [.ident "path", .punct '=', .literal "\"/foos\"", .punct ',',
    .ident "responses", .group .parenthesis [statusEntry "404"], .punct ',',
    .ident "responses", .group .parenthesis [statusEntry "500"]]

theorem repeatedResponses_lost :
    ∃ expansion, routeMethodFn plainKit .get repeatedResponses listFn = .ok expansion ∧
      ¬ NothingLost plainKit repeatedResponses listFn expansion := by
  have hok : ∃ expansion, routeMethodFn plainKit .get repeatedResponses listFn = .ok expansion :=
    ⟨_, rfl⟩
  obtain ⟨expansion, hok⟩ := hok
  refine ⟨expansion, hok, fun h => ?_⟩
  obtain ⟨-, -, -, -, hargs, -⟩ := argsNamed_pathArgs hok
  have hcarries := h.responses
  rw [hargs, carries_iff, readWhole_iff] at hcarries
  -- the second chunk has an entry
  cases hcarries.2 [.ident "responses", .group .parenthesis [statusEntry "500"]]
    List.mem_cons_self

/-- `path = "/foos", responses((status = 404))` -/
def oneResponse : TokenStream :=
  [.ident "path", .punct '=', .literal "\"/foos\"", .punct ',',
    .ident "responses", .group .parenthesis [statusEntry "404"]]

theorem oneResponse_kept :
    ∃ expansion, routeMethodFn plainKit .get oneResponse listFn = .ok expansion ∧
      NothingLost plainKit oneResponse listFn expansion := by
  refine ⟨_, rfl, (nothingLost_iff_readWhole rfl).mpr ⟨by decide, ?_, trivial⟩⟩
  show ReadWhole [[.ident "responses", .group .parenthesis [statusEntry "404"]]]
  exact ⟨nofun, nofun⟩

end Macros
end StanoPlatform
