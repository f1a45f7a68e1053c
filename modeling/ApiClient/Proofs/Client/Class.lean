import Mathlib.Data.List.Forall2
import ApiClient.Client.Class
import ApiClient.Proofs.Client.Address
import ApiClient.TypeScript.TypeNames

/-! What building a class comes to, for any list of operations.

The first operation that has no method, or whose method name an earlier one has, stops the class
and gives the error. If no operation stops it, the class has one method for each of them, in order.
The method names seen on the way are those of all earlier operations, so the one that is reported
is the only earlier one with that name.
-/

set_option autoImplicit false

namespace ApiClient.Client

open ApiClient.Manifest ApiClient.Tree ApiClient.TypeScript

/-- The verbs whose methods send a request, and therefore need an address. -/
def sendingVerbs : List HttpMethod :=
  [.get, .delete, .post, .put]

def isUndeclared (operation : ApiOperation) (wanted : String) : Bool :=
  operation.parameters.all fun parameter => !sameName parameter.name wanted

def undeclared? (operation : ApiOperation) : Option String :=
  (UriTemplate.variableNames operation.path).find? (isUndeclared operation)

/-- What stops a class at the operation with an index: it has no method, or it has one whose name
is that of an earlier operation. -/
inductive StopsAt (builder : FunctionBuilder) (operations : List ApiOperation) (i : Nat) :
    ClientError → Prop where
  | unaddressed {operation : ApiOperation} {wanted : String} :
    operations[i]? = some operation → operation.method ∈ sendingVerbs →
    undeclared? operation = some wanted →
    StopsAt builder operations i (.unknownUriVariable operation.name wanted)
  | taken {j : Nat} {first second : ApiOperation} {method : Method} :
    operations[i]? = some second → builder.build second = .ok method →
    j < i → operations[j]? = some first → builder.methodName first = method.name →
    StopsAt builder operations i (.duplicateMethod method.name first.name second.name)

def ClearBefore (builder : FunctionBuilder) (operations : List ApiOperation) (i : Nat) : Prop :=
  ∀ k < i, ∀ error, ¬StopsAt builder operations k error

/-- What stops a class at the smallest index at which anything does. -/
structure FirstStop (builder : FunctionBuilder) (operations : List ApiOperation) (i : Nat)
    (error : ClientError) : Prop where
  stops : StopsAt builder operations i error
  clear : ClearBefore builder operations i

/-- One method for each operation, in order, and all of different names. -/
structure OneForEach (builder : FunctionBuilder) (operations : List ApiOperation)
    (methods : List Method) : Prop where
  built : List.Forall₂ (fun operation method => builder.build operation = .ok method)
    operations methods
  names : methods.map (·.name) = operations.map builder.methodName
  parameters : methods.map (·.parameters) = operations.map fun operation =>
    operation.parameters.map fun parameter => ⟨parameter.name, parameter.type⟩
  distinct : (methods.map (·.name)).Nodup

section

variable {operation : ApiOperation}

theorem sender?_eq_none_iff (verb : HttpMethod) : sender? verb = none ↔ verb ∉ sendingVerbs := by
  cases verb <;> decide

theorem parameter?_eq_none_iff (wanted : String) :
    operation.parameter? wanted = none ↔ isUndeclared operation wanted = true := by
  simp [ApiOperation.parameter?, isUndeclared]

theorem spliceParts_outcome (operation : ApiOperation) (parts : List UriPart) :
    (∃ path, spliceParts operation parts = .ok path ∧
      (parts.filterMap UriPart.variable?).find? (isUndeclared operation) = none) ∨
    ∃ wanted, spliceParts operation parts = .error (.unknownUriVariable operation.name wanted) ∧
      (parts.filterMap UriPart.variable?).find? (isUndeclared operation) = some wanted := by
  induction parts with
  | nil => exact .inl ⟨"", rfl, rfl⟩
  | cons part parts ih =>
    cases part with
    | literal text =>
      -- literal text is no variable and cannot stop the splicing
      rcases ih with ⟨path, spliced, declared⟩ | ⟨wanted, stopped, first⟩
      · exact .inl ⟨_, by rw [spliceParts, spliced]; rfl, declared⟩
      · exact .inr ⟨wanted, by rw [spliceParts, stopped]; rfl, first⟩
    | «variable» name =>
      rw [List.filterMap_cons_some (rfl : UriPart.variable? (.variable name) = some name)]
      cases found : operation.parameter? name with
      | none =>
        have missing := (parameter?_eq_none_iff name).1 found
        exact .inr ⟨name, by simp only [spliceParts, found], List.find?_cons_of_pos missing⟩
      | some parameter =>
        have known : ¬isUndeclared operation name = true := by
          rw [← parameter?_eq_none_iff, found]
          exact Option.some_ne_none parameter
        rw [List.find?_cons_of_neg known]
        rcases ih with ⟨path, spliced, declared⟩ | ⟨wanted, stopped, first⟩
        · exact .inl ⟨_, by simp only [spliceParts, found, spliced]; rfl, declared⟩
        · exact .inr ⟨wanted, by simp only [spliceParts, found, stopped]; rfl, first⟩

/-- An operation has a method unless it sends a request to an address with an undeclared
variable. -/
theorem FunctionBuilder.build_outcome (builder : FunctionBuilder) (operation : ApiOperation) :
    (∃ method, builder.build operation = .ok method ∧
      method.name = builder.methodName operation ∧
      method.parameters = operation.parameters.map
        (fun parameter => ⟨parameter.name, parameter.type⟩) ∧
      (operation.method ∈ sendingVerbs → undeclared? operation = none)) ∨
    ∃ wanted, builder.build operation = .error (.unknownUriVariable operation.name wanted) ∧
      operation.method ∈ sendingVerbs ∧ undeclared? operation = some wanted := by
  cases verb : sender? operation.method with
  | none =>
    have silent := (sender?_eq_none_iff operation.method).1 verb
    refine .inl ⟨_, by rw [build, requestBody, verb]; rfl, rfl, rfl, fun sends => ?_⟩
    exact absurd sends silent
  | some sender =>
    have sends : operation.method ∈ sendingVerbs := by
      rw [← not_not (a := operation.method ∈ sendingVerbs), ← sender?_eq_none_iff, verb]
      exact Option.some_ne_none sender
    rcases spliceParts_outcome operation (UriTemplate.parts operation.path) with
      ⟨path, spliced, declared⟩ | ⟨wanted, stopped, first⟩
    · have address := uriText_of_spliceParts spliced
      exact .inl ⟨_, by rw [build, requestBody, verb, address]; rfl, rfl, rfl, fun _ => declared⟩
    · exact .inr ⟨wanted, by rw [build, requestBody, verb, uriText, stopped]; rfl, sends, first⟩

theorem FunctionBuilder.signature_of_build (builder : FunctionBuilder) {method : Method}
    (built : builder.build operation = .ok method) :
    method.name = builder.methodName operation ∧
      method.parameters = operation.parameters.map
        fun parameter => ⟨parameter.name, parameter.type⟩ := by
  rcases builder.build_outcome operation with ⟨_, made, name, params, -⟩ | ⟨_, failed, -⟩
  · cases made.symm.trans built
    exact ⟨name, params⟩
  · cases failed.symm.trans built

end

section

variable {builder : FunctionBuilder} {operations : List ApiOperation} {i : Nat}
  {operation : ApiOperation} {error : ClientError}

theorem StopsAt.exists_operation (stops : StopsAt builder operations i error) :
    ∃ operation, operations[i]? = some operation := by
  cases stops with
  | unaddressed here _ _ => exact ⟨_, here⟩
  | taken here _ _ _ _ => exact ⟨_, here⟩

theorem StopsAt.eq_of_unbuilt {cause : ClientError} (stops : StopsAt builder operations i error)
    (here : operations[i]? = some operation) (failed : builder.build operation = .error cause) :
    error = cause := by
  cases stops with
  | unaddressed found _ unknown =>
    cases found.symm.trans here
    rcases builder.build_outcome operation with ⟨_, built, -⟩ | ⟨wanted, failed', -, unknown'⟩
    · cases failed.symm.trans built
    · cases failed.symm.trans failed'
      cases unknown.symm.trans unknown'
      rfl
  | taken found built _ _ _ =>
    cases found.symm.trans here
    cases built.symm.trans failed

theorem StopsAt.exists_of_built {method : Method} (stops : StopsAt builder operations i error)
    (here : operations[i]? = some operation) (built : builder.build operation = .ok method) :
    ∃ j first, j < i ∧ operations[j]? = some first ∧ builder.methodName first = method.name ∧
      error = .duplicateMethod method.name first.name operation.name := by
  cases stops with
  | unaddressed found sends unknown =>
    cases found.symm.trans here
    rcases builder.build_outcome operation with ⟨_, -, -, -, declared⟩ | ⟨wanted, failed, -⟩
    · cases unknown.symm.trans (declared sends)
    · cases built.symm.trans failed
  | taken found built' before earlier same =>
    cases found.symm.trans here
    cases built'.symm.trans built
    exact ⟨_, _, before, earlier, same, rfl⟩

theorem exists_stopsAt_of_methodName {j k : Nat} {first second : ApiOperation}
    (left : operations[j]? = some first) (right : operations[k]? = some second)
    (same : builder.methodName first = builder.methodName second) (earlier : j < k) :
    ∃ error, StopsAt builder operations k error := by
  rcases builder.build_outcome second with ⟨method, built, name, -⟩ | ⟨wanted, -, sends, unknown⟩
  · exact ⟨_, .taken right built earlier left (same.trans name.symm)⟩
  · exact ⟨_, .unaddressed right sends unknown⟩

theorem ClearBefore.eq_of_methodName (clear : ClearBefore builder operations i) {j k : Nat}
    {first second : ApiOperation} (before : j < i) (before' : k < i)
    (left : operations[j]? = some first) (right : operations[k]? = some second)
    (same : builder.methodName first = builder.methodName second) : j = k := by
  rcases Nat.lt_trichotomy j k with earlier | equal | later
  · obtain ⟨error, stops⟩ := exists_stopsAt_of_methodName left right same earlier
    exact absurd stops (clear k before' error)
  · exact equal
  · obtain ⟨error, stops⟩ := exists_stopsAt_of_methodName right left same.symm later
    exact absurd stops (clear j before error)

theorem methodNames_nodup_iff : (operations.map builder.methodName).Nodup ↔
    ∀ (j k : Nat) (first second : ApiOperation), j < k →
      operations[j]? = some first → operations[k]? = some second →
        builder.methodName first ≠ builder.methodName second := by
  rw [List.Nodup, List.pairwise_map, List.pairwise_iff_getElem]
  constructor
  · intro apart j k first second earlier left right
    obtain ⟨before, rfl⟩ := List.getElem?_eq_some_iff.1 left
    obtain ⟨inside, rfl⟩ := List.getElem?_eq_some_iff.1 right
    exact apart j k before inside earlier
  · intro apart j k before inside earlier
    exact apart j k _ _ earlier (List.getElem?_eq_getElem before) (List.getElem?_eq_getElem inside)

theorem ClearBefore.methodNames_nodup (clear : ClearBefore builder operations operations.length) :
    (operations.map builder.methodName).Nodup := by
  refine methodNames_nodup_iff.2 fun j k first second earlier left right same => ?_
  obtain ⟨error, stops⟩ := exists_stopsAt_of_methodName left right same earlier
  exact clear k (List.getElem?_eq_some_iff.1 right).1 error stops

theorem FirstStop.error_unique {k : Nat} {other : ClientError}
    (left : FirstStop builder operations i error) (right : FirstStop builder operations k other) :
    error = other := by
  obtain rfl : i = k := by
    rcases Nat.lt_trichotomy i k with earlier | same | later
    · exact absurd left.stops (right.clear i earlier error)
    · exact same
    · exact absurd right.stops (left.clear k later other)
  -- at one index, either the method is missing or its name is taken
  obtain ⟨operation, here⟩ := left.stops.exists_operation
  cases built : builder.build operation with
  | error cause =>
    rw [left.stops.eq_of_unbuilt here built, right.stops.eq_of_unbuilt here built]
  | ok method =>
    obtain ⟨j, first, before, found, name, rfl⟩ := left.stops.exists_of_built here built
    obtain ⟨j', first', before', found', name', rfl⟩ := right.stops.exists_of_built here built
    obtain rfl := left.clear.eq_of_methodName before before' found found' (name.trans name'.symm)
    cases found.symm.trans found'
    rfl

theorem StopsAt.exists_firstStop (stops : StopsAt builder operations i error) :
    ∃ k other, FirstStop builder operations k other := by
  -- if the index is not the smallest one, go on from a smaller one
  induction i using Nat.strongRecOn generalizing error with
  | ind i ih =>
    by_cases clear : ClearBefore builder operations i
    · exact ⟨i, error, stops, clear⟩
    · simp only [ClearBefore, not_forall, not_not] at clear
      obtain ⟨k, before, other, stops'⟩ := clear
      exact ih k before stops'

end

section

variable (builder : FunctionBuilder)

/-- The method names of operations that were built, the last one first, as they are seen by the
operations after them. -/
def namesSeen (earlier : List ApiOperation) : List (String × String) :=
  (earlier.map fun operation => (builder.methodName operation, operation.name)).reverse

theorem namesSeen_append (earlier : List ApiOperation) (operation : ApiOperation) :
    namesSeen builder (earlier ++ [operation]) =
      (builder.methodName operation, operation.name) :: namesSeen builder earlier := by
  simp [namesSeen]

theorem exists_of_lookup_namesSeen {earlier : List ApiOperation} {name first : String}
    (found : (namesSeen builder earlier).lookup name = some first) :
    ∃ j operation, j < earlier.length ∧ earlier[j]? = some operation ∧
      builder.methodName operation = name ∧ operation.name = first := by
  obtain ⟨before, after, split, -⟩ := List.lookup_eq_some_iff.1 found
  have member : (name, first) ∈ namesSeen builder earlier := by simp [split]
  obtain ⟨operation, inside, same⟩ := List.mem_map.1 (List.mem_reverse.1 member)
  obtain ⟨j, bound, rfl⟩ := List.mem_iff_getElem.1 inside
  exact ⟨j, _, bound, List.getElem?_eq_getElem bound, congrArg Prod.fst same,
    congrArg Prod.snd same⟩

theorem methodName_ne_of_lookup_namesSeen {earlier : List ApiOperation} {name : String}
    (fresh : (namesSeen builder earlier).lookup name = none) {j : Nat} {operation : ApiOperation}
    (found : earlier[j]? = some operation) : builder.methodName operation ≠ name := by
  have member : (builder.methodName operation, operation.name) ∈ namesSeen builder earlier :=
    List.mem_reverse.2 (List.mem_map.2 ⟨operation, List.mem_of_getElem? found, rfl⟩)
  rintro rfl
  simpa using List.lookup_eq_none_iff.1 fresh _ member

theorem buildMethods_cons_of_seen {builder : FunctionBuilder} {seen : List (String × String)}
    {operation : ApiOperation} {method : Method} {other : String}
    (built : builder.build operation = .ok method) (rest : List ApiOperation)
    (found : seen.lookup method.name = some other) :
    buildMethods builder seen (operation :: rest) =
      .error (.duplicateMethod method.name other operation.name) := by
  simp only [buildMethods, built, bind, Except.bind, found]
  rfl

theorem buildMethods_cons_of_new {builder : FunctionBuilder} {seen : List (String × String)}
    {operation : ApiOperation} {method : Method} (built : builder.build operation = .ok method)
    (rest : List ApiOperation) (fresh : seen.lookup method.name = none) :
    buildMethods builder seen (operation :: rest) =
      buildMethods builder ((method.name, operation.name) :: seen) rest >>= fun methods =>
        .ok (method :: methods) := by
  simp only [buildMethods, built, bind, Except.bind, fresh]
  rfl

/-- Operations that are built one after the other, with those before them already built. -/
theorem buildMethods_run (earlier rest : List ApiOperation)
    (clear : ClearBefore builder (earlier ++ rest) earlier.length) :
    (∃ i error, FirstStop builder (earlier ++ rest) i error ∧
      buildMethods builder (namesSeen builder earlier) rest = .error error) ∨
    (ClearBefore builder (earlier ++ rest) (earlier ++ rest).length ∧
      ∃ methods, buildMethods builder (namesSeen builder earlier) rest = .ok methods ∧
        List.Forall₂ (fun operation method => builder.build operation = .ok method)
          rest methods) := by
  -- by induction on what is left: the names seen are always those of all operations before it
  induction rest generalizing earlier with
  | nil => exact .inr ⟨by simpa using clear, [], rfl, .nil⟩
  | cons operation rest ih =>
    have here : (earlier ++ operation :: rest)[earlier.length]? = some operation := by simp
    rcases builder.build_outcome operation with
      ⟨method, built, name, -, declared⟩ | ⟨wanted, failed, sends, unknown⟩
    · cases found : (namesSeen builder earlier).lookup method.name with
      | some first =>
        have stopped := buildMethods_cons_of_seen built rest found
        obtain ⟨j, other, before, at_, same, rfl⟩ := exists_of_lookup_namesSeen builder found
        have inside : (earlier ++ operation :: rest)[j]? = some other := by
          rw [List.getElem?_append_left before, at_]
        exact .inl ⟨_, _, ⟨.taken here built before inside same, clear⟩, stopped⟩
      | none =>
        have step := buildMethods_cons_of_new built rest found
        have whole : earlier ++ operation :: rest = (earlier ++ [operation]) ++ rest :=
          List.append_cons earlier operation rest
        -- nothing stops the class at this operation either
        have clear' : ClearBefore builder (earlier ++ operation :: rest)
            (earlier ++ [operation]).length := by
          intro k before error stops
          rw [List.length_append, List.length_singleton] at before
          rcases Nat.lt_succ_iff_lt_or_eq.1 before with before | rfl
          · exact clear k before error stops
          · obtain ⟨j, first, before, at_, same, -⟩ := stops.exists_of_built here built
            rw [List.getElem?_append_left before] at at_
            exact methodName_ne_of_lookup_namesSeen builder found at_ same
        rw [step, name, ← namesSeen_append]
        rw [whole] at clear' ⊢
        rcases ih (earlier ++ [operation]) clear' with
          ⟨i, error, first, stopped⟩ | ⟨clear, methods, done, each⟩
        · exact .inl ⟨i, error, first, by rw [stopped]; rfl⟩
        · exact .inr ⟨clear, method :: methods, by rw [done]; rfl, .cons built each⟩
    · have stopped : buildMethods builder (namesSeen builder earlier) (operation :: rest) =
          .error (.unknownUriVariable operation.name wanted) := by
        rw [buildMethods, failed]
        rfl
      exact .inl ⟨_, _, ⟨.unaddressed here sends unknown, clear⟩, stopped⟩

variable {builder}

theorem OneForEach.of_built {operations : List ApiOperation} {methods : List Method}
    (built : List.Forall₂ (fun operation method => builder.build operation = .ok method)
      operations methods)
    (distinct : (operations.map builder.methodName).Nodup) :
    OneForEach builder operations methods := by
  have both : methods.map (·.name) = operations.map builder.methodName ∧
      methods.map (·.parameters) = operations.map fun operation =>
        operation.parameters.map fun parameter => ⟨parameter.name, parameter.type⟩ := by
    clear distinct
    induction built with
    | nil => exact ⟨rfl, rfl⟩
    | cons first _ ih =>
      obtain ⟨name, params⟩ := builder.signature_of_build first
      simp only [List.map_cons, name, params, ih, and_self]
  exact ⟨built, both.1, both.2, both.1 ▸ distinct⟩

theorem OneForEach.exists_method {operations : List ApiOperation} {methods : List Method}
    (each : OneForEach builder operations methods) {operation : ApiOperation}
    (listed : operation ∈ operations) :
    ∃ method ∈ methods, builder.build operation = .ok method := by
  obtain ⟨i, bound, rfl⟩ := List.mem_iff_getElem.1 listed
  have bound' : i < methods.length := each.built.length_eq ▸ bound
  exact ⟨_, List.getElem_mem bound', each.built.get bound bound'⟩

theorem OneForEach.exists_of_mem {operations : List ApiOperation} {methods : List Method}
    (each : OneForEach builder operations methods) {method : Method} (inside : method ∈ methods) :
    ∃ operation ∈ operations, builder.build operation = .ok method := by
  obtain ⟨i, bound, rfl⟩ := List.mem_iff_getElem.1 inside
  have bound' : i < operations.length := each.built.length_eq ▸ bound
  exact ⟨_, List.getElem_mem bound', each.built.get bound' bound⟩

end

def classWith (name : String) (methods : List Method) : Declaration where
  kind := .classType
  name
  exported := true
  members := .snippet constructorText :: methods.map .method

theorem buildClass_run (builder : FunctionBuilder) (name : String)
    (operations : List ApiOperation) :
    (∃ i error, FirstStop builder operations i error ∧
      buildClass builder name operations = .error error) ∨
    (ClearBefore builder operations operations.length ∧
      ∃ methods, OneForEach builder operations methods ∧
        buildClass builder name operations = .ok (classWith name methods)) := by
  rcases buildMethods_run builder [] operations nofun with
    ⟨i, error, first, stopped⟩ | ⟨clear, methods, done, each⟩
  · have stopped : buildMethods builder [] operations = .error error := stopped
    exact .inl ⟨i, error, first, by rw [buildClass, stopped]; rfl⟩
  · have done : buildMethods builder [] operations = .ok methods := done
    exact .inr ⟨clear, methods, .of_built each clear.methodNames_nodup, by
      rw [buildClass, done]; rfl⟩

/-- A class is decided by the smallest index at which an operation stops it; a method name that is
reported has one earlier owner. A class that nothing stops has one method for each operation. -/
theorem buildClass_decided (builder : FunctionBuilder) (name : String)
    (operations : List ApiOperation) :
    (∀ error, buildClass builder name operations = .error error ↔
      ∃ i, FirstStop builder operations i error) ∧
    (∀ i method first second,
      FirstStop builder operations i (.duplicateMethod method first second) →
      ∃ j earlier, j < i ∧ operations[j]? = some earlier ∧ earlier.name = first ∧
        builder.methodName earlier = method ∧
        ∀ k other, k < i → operations[k]? = some other → builder.methodName other = method →
          k = j) ∧
    ((∀ i error, ¬StopsAt builder operations i error) ↔
      ∃ methods, OneForEach builder operations methods ∧
        buildClass builder name operations = .ok (classWith name methods)) := by
  have run := buildClass_run builder name operations
  have errors : ∀ error, buildClass builder name operations = .error error ↔
      ∃ i, FirstStop builder operations i error := by
    intro error
    rcases run with ⟨k, cause, first, failed⟩ | ⟨clear, methods, -, built⟩
    · rw [failed]
      constructor
      · rintro ⟨⟩
        exact ⟨k, first⟩
      · rintro ⟨i, other⟩
        rw [first.error_unique other]
    · rw [built]
      refine ⟨nofun, ?_⟩
      rintro ⟨i, first⟩
      obtain ⟨operation, here⟩ := first.stops.exists_operation
      exact absurd first.stops (clear i (List.getElem?_eq_some_iff.1 here).1 error)
  refine ⟨errors, ?_, ?_, ?_⟩
  · intro i method first second stop
    cases stop.stops with
    | taken here built before found same =>
      exact ⟨_, _, before, found, rfl, same, fun k other before' found' same' =>
        stop.clear.eq_of_methodName before' before found' found (same'.trans same.symm)⟩
  · intro free
    rcases run with ⟨i, cause, first, -⟩ | ⟨-, methods, each, built⟩
    · exact absurd first.stops (free i cause)
    · exact ⟨methods, each, built⟩
  · rintro ⟨methods, -, built⟩ i error stops
    obtain ⟨k, other, first⟩ := stops.exists_firstStop
    cases built.symm.trans ((errors other).2 ⟨k, first⟩)

/-- A verb that sends nothing, with a variable that is not declared, and a name that is taken before
the next such variable. -/
def mixedOperations : List ApiOperation :=
  [{ name := "Patch", method := .patch, path := "values/{id}" },
   { name := "GetAsync", method := .get, path := "values" },
   { name := "Get", method := .post, path := "values/{ID?}"
     parameters := [{ name := "id", type := .int }] },
   { name := "Delete", method := .delete, path := "values/{id}" }]

theorem buildClass_decided_mixed :
    buildClass ⟨typeMapper, true⟩ "Values" mixedOperations =
      .error (.duplicateMethod "get" "GetAsync" "Get") ∧
    ∃ (i j : Nat) (earlier : ApiOperation), j < i ∧ mixedOperations[j]? = some earlier ∧
      earlier.name = "GetAsync" := by
  have failed : buildClass ⟨typeMapper, true⟩ "Values" mixedOperations =
      .error (.duplicateMethod "get" "GetAsync" "Get") := by rfl
  obtain ⟨errors, owner, -⟩ := buildClass_decided ⟨typeMapper, true⟩ "Values" mixedOperations
  obtain ⟨i, stop⟩ := (errors _).1 failed
  obtain ⟨j, earlier, before, found, same, -⟩ := owner i _ _ _ stop
  exact ⟨failed, i, j, earlier, before, found, same⟩

end ApiClient.Client
