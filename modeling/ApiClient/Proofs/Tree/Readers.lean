import ApiClient.Proofs.Tree.Reading

/-! The readers of the nodes on data that is alike.

One law for every node says that a reader takes data that is alike in each of its slots for the same
node, provided that the readers of the nodes inside agree. Data within the depth of a reader is
alike to itself, so a reader that looks deeper reads the same, and a node is read by its own reader
all the way down.
-/

set_option autoImplicit false

namespace ApiClient.Tree

open ApiClient.Json

variable {alike : NodeKind → Json → Json → Prop} {medium : Medium} {json other : Json}

section Types

theorem TypeRef.readNode_congr {read read' : Json → Option TypeRef}
    (types : (Place.node .type).Agree alike read read')
    (same : NodeKind.type.DataAlike alike medium json other) :
    readNode medium read json = readNode medium read' other := by
  refine bind_congr_of_rel same ?_
  rintro _ _ ⟨name, nullable, args⟩
  rw [text?_congr name, flag?_congr nullable, list?_congr args types]

variable (types : (Place.node .type).Agree alike (TypeRef.read? medium) (TypeRef.read? medium))
include types

theorem TypeParam.read?_congr (same : NodeKind.typeParam.DataAlike alike medium json other) :
    read? medium json = read? medium other := by
  refine bind_congr_of_rel same ?_
  rintro _ _ ⟨name, bounds⟩
  rw [text?_congr name, list?_congr bounds types]

theorem Parameter.read?_congr (same : NodeKind.parameter.DataAlike alike medium json other) :
    read? medium json = read? medium other := by
  refine bind_congr_of_rel same ?_
  rintro _ _ ⟨name, type⟩
  rw [text?_congr name, required?_congr type types]

end Types

section Expressions

theorem Literal.ofJson?_compound : ∀ json : Json, json.IsCompound → ofJson? json = none :=
  forall_compound (fun _ => rfl) (fun _ => rfl)

variable {read read' : Json → Option Expression}
  (types : (Place.node .type).Agree alike (TypeRef.read? .held) (TypeRef.read? .held))
  (literals : (Place.node .literal).Agree alike Literal.ofJson? Literal.ofJson?)
  (expressions : (Place.node .expression).Agree alike read read')
include types literals expressions

theorem Expression.readVariant_congr {variant : String}
    (same : RecordAlike alike .held (NodeKind.expression.parts variant) json other) :
    readVariant read variant json = readVariant read' variant other := by
  unfold readVariant
  -- the slots of a variant are the fields that its reader knows, so each is read alike in turn
  split
  · refine bind_congr_of_rel same fun _ _ name => ?_
    rw [text?_congr name]
  · refine bind_congr_of_rel same ?_
    rintro _ _ ⟨target, name⟩
    rw [required?_congr target expressions, text?_congr name]
  · refine bind_congr_of_rel same ?_
    rintro _ _ ⟨target, method, args⟩
    rw [required?_congr target expressions, text?_congr method, list?_congr args expressions]
  · refine bind_congr_of_rel same ?_
    rintro _ _ ⟨target, method, typeArgs⟩
    rw [required?_congr target expressions, text?_congr method, list?_congr typeArgs types]
  · refine bind_congr_of_rel same ?_
    rintro _ _ ⟨type, args⟩
    rw [required?_congr type types, list?_congr args expressions]
  · refine bind_congr_of_rel same ?_
    rintro _ _ ⟨name, type⟩
    rw [text?_congr name, required?_congr type types]
  · refine bind_congr_of_rel same fun _ _ value => ?_
    rw [required?_congr value literals]
  · refine bind_congr_of_rel same ?_
    rintro _ _ ⟨target, name⟩
    rw [required?_congr target expressions, text?_congr name]
  · refine bind_congr_of_rel same fun _ _ text => ?_
    rw [text?_congr text]
  · exact bind_congr_of_rel same fun _ _ _ => rfl
  · refine bind_congr_of_rel same fun _ _ type => ?_
    rw [required?_congr type types]
  · refine bind_congr_of_rel same fun _ _ name => ?_
    rw [text?_congr name]
  · refine bind_congr_of_rel same fun _ _ form => ?_
    rw [required?_congr form .word]
  · rfl

theorem Expression.readNode_congr (same : NodeKind.expression.DataAlike alike medium json other) :
    readNode medium read json = readNode medium read' other := by
  refine bind_congr_of_rel same ?_
  rintro ⟨variant, body⟩ ⟨_, body'⟩ ⟨rfl, parts⟩
  exact readVariant_congr types literals expressions parts

end Expressions

section Statements

variable {read read' : Json → Option Statement}
  (types : (Place.node .type).Agree alike (TypeRef.read? .held) (TypeRef.read? .held))
  (expressions :
    (Place.node .expression).Agree alike (Expression.read? .held) (Expression.read? .held))
  (statements : (Place.node .statement).Agree alike read read')

include statements in
theorem Statement.readCatch_congr
    (same : NodeKind.catchClause.DataAlike alike medium json other) :
    readCatch medium read json = readCatch medium read' other := by
  refine bind_congr_of_rel same ?_
  rintro _ _ ⟨localName, body⟩
  rw [text?_congr localName, list?_congr body statements]

variable (clauses : (Place.node .catchClause).Agree alike (Statement.readCatch .held read)
    (Statement.readCatch .held read'))
include types expressions statements clauses

theorem Statement.readVariant_congr {variant : String}
    (same : RecordAlike alike .held (NodeKind.statement.parts variant) json other) :
    readVariant read variant json = readVariant read' variant other := by
  unfold readVariant
  split
  · refine bind_congr_of_rel same ?_
    rintro _ _ ⟨left, right⟩
    rw [required?_congr left expressions, required?_congr right expressions]
  · refine bind_congr_of_rel same fun _ _ text => ?_
    rw [text?_congr text]
  · refine bind_congr_of_rel same ?_
    rintro _ _ ⟨test, thenBody, elseBody⟩
    rw [required?_congr test expressions, list?_congr thenBody statements,
      optional?_congr elseBody statements.list]
  · refine bind_congr_of_rel same fun _ _ value => ?_
    rw [required?_congr value expressions]
  · refine bind_congr_of_rel same ?_
    rintro _ _ ⟨init, test, step, body⟩
    rw [required?_congr init statements, required?_congr test expressions,
      required?_congr step statements, list?_congr body statements]
  · refine bind_congr_of_rel same fun _ _ value => ?_
    rw [optional?_congr value expressions]
  · refine bind_congr_of_rel same fun _ _ value => ?_
    rw [required?_congr value expressions]
  · refine bind_congr_of_rel same ?_
    rintro _ _ ⟨body, catches, finallyBody⟩
    rw [list?_congr body statements, list?_congr catches clauses,
      list?_congr finallyBody statements]
  · refine bind_congr_of_rel same ?_
    rintro _ _ ⟨type, name, init⟩
    rw [required?_congr type types, text?_congr name, optional?_congr init expressions]
  · refine bind_congr_of_rel same fun _ _ text => ?_
    rw [text?_congr text]
  · refine bind_congr_of_rel same fun _ _ form => ?_
    rw [required?_congr form .word]
  · rfl

theorem Statement.readNode_congr (same : NodeKind.statement.DataAlike alike medium json other) :
    readNode medium read json = readNode medium read' other := by
  refine bind_congr_of_rel same ?_
  rintro ⟨variant, body⟩ ⟨_, body'⟩ ⟨rfl, parts⟩
  exact readVariant_congr types expressions statements clauses parts

end Statements

section Members

variable
  (types : ∀ medium, (Place.node .type).Agree alike (TypeRef.read? medium) (TypeRef.read? medium))
  (typeParams : ∀ medium,
    (Place.node .typeParam).Agree alike (TypeParam.read? medium) (TypeParam.read? medium))
  (parameters : ∀ medium,
    (Place.node .parameter).Agree alike (Parameter.read? medium) (Parameter.read? medium))
  (expressions : ∀ medium,
    (Place.node .expression).Agree alike (Expression.read? medium) (Expression.read? medium))
  (statements : ∀ medium,
    (Place.node .statement).Agree alike (Statement.read? medium) (Statement.read? medium))
  (members : ∀ medium,
    (Place.node .member).Agree alike (Member.read? medium) (Member.read? medium))

include types parameters statements in
theorem Method.read?_congr (same : RecordAlike alike medium methodSlots json other) :
    read? medium json = read? medium other := by
  refine bind_congr_of_rel same ?_
  rintro _ _ ⟨name, isConstructor, params, returnType, body, doc⟩
  rw [text?_congr name, flag?_congr isConstructor, list?_congr params (parameters medium),
    optional?_congr returnType (types medium), list?_congr body (statements medium),
    list?_congr doc (.plain string?_compound)]

include types parameters expressions statements in
theorem Member.readVariant_congr {variant : String}
    (same : RecordAlike alike .held (NodeKind.member.parts variant) json other) :
    readVariant variant json = readVariant variant other := by
  unfold readVariant
  split
  · refine bind_congr_of_rel same ?_
    rintro _ _ ⟨name, type, init⟩
    rw [text?_congr name, required?_congr type (types .held),
      optional?_congr init (expressions .held)]
  · refine bind_congr_of_rel same ?_
    rintro _ _ ⟨name, type⟩
    rw [text?_congr name, required?_congr type (types .held)]
  · rw [Method.read?_congr types parameters statements same]
  · refine bind_congr_of_rel same fun _ _ text => ?_
    rw [text?_congr text]
  · rfl

include types parameters expressions statements in
theorem Member.read?_congr (same : NodeKind.member.DataAlike alike medium json other) :
    read? medium json = read? medium other := by
  refine bind_congr_of_rel same ?_
  rintro ⟨variant, body⟩ ⟨_, body'⟩ ⟨rfl, parts⟩
  exact readVariant_congr types parameters expressions statements parts

include types typeParams members in
theorem Declaration.read?_congr (same : NodeKind.declaration.DataAlike alike medium json other) :
    read? medium json = read? medium other := by
  refine bind_congr_of_rel same ?_
  rintro _ _ ⟨kind, name, params, bases, visibility, inner⟩
  have usual : exported? "public" = some true := rfl
  rw [required?_congr kind .word, text?_congr name,
    list?_congr params (typeParams medium), list?_congr bases (types medium),
    choice?_congr visibility usual, list?_congr inner (members medium)]

end Members

section Depth

def Within (bound : Nat) (_ : NodeKind) (json other : Json) : Prop :=
  json = other ∧ json.depth ≤ bound

variable {bound : Nat}

theorem Place.alike_within (below : json.depth ≤ bound) (place : Place) :
    place.Alike (Within bound) json json := by
  refine alike_self (·.depth ≤ bound) (fun _ _ below => ⟨rfl, below⟩)
    (fun list below item member => ?_) place below
  exact ((depth_lt_of_mem_items member).trans_le below).le

theorem Slot.same_within {fields : Fields} (below : ∀ field ∈ fields, field.2.depth ≤ bound)
    (slot : Slot) : slot.Same (Within bound) fields fields := by
  rw [Slot.Same]
  cases stands : slot.value fields with
  | none => exact .none
  | some json =>
    refine .some ⟨?_, Iff.rfl⟩
    rcases Option.or_eq_some_iff.1 stands with found | ⟨-, missing⟩
    · exact slot.place.alike_within (below _ (Fields.mem_of_find? found))
    · cases slot with
      | required _ _ => contradiction
      | optional _ place =>
        obtain rfl := Option.some.inj missing
        exact place.alike_within (Nat.zero_le _)
      | list _ _ =>
        obtain rfl := Option.some.inj missing
        exact .some .nil
      | flag _ => exact .inl rfl
      | choice _ _ => exact fun _ => ⟨rfl, rfl⟩

theorem record?_of_flat (flat : json.depth = 0) (names : List String) :
    json.record? medium names = none := by
  cases json with
  | array items => exact absurd flat (Nat.succ_ne_zero _)
  | object fields => exact absurd flat (Nat.succ_ne_zero _)
  | _ => rfl

theorem tagged?_of_flat (flat : json.depth = 0) (tag : String) (variants : List String) :
    json.tagged? medium tag variants = none := by
  cases json with
  | array items => exact absurd flat (Nat.succ_ne_zero _)
  | object fields => exact absurd flat (Nat.succ_ne_zero _)
  | _ => rfl

theorem depth_le_of_record? {names : List String} {fields : Fields}
    (nested : json.depth ≤ bound + 1) (read : json.record? medium names = some fields) :
    ∀ field ∈ fields, field.2.depth ≤ bound := by
  intro field member
  refine Nat.lt_succ_iff.1 (Nat.lt_of_lt_of_le ?_ nested)
  unfold record? at read
  split at read
  · rw [Fields.known?] at read
    split at read
    · obtain rfl := Option.some.inj read
      exact depth_lt_of_mem_fields member
    · contradiction
  · split at read
    · obtain rfl := Option.some.inj read
      exact depth_lt_of_mem_items (List.of_mem_zip member).2
    · contradiction
  · contradiction

theorem depth_le_of_tagged? {tag variant : String} {variants : List String} {body : Json}
    (nested : json.depth ≤ bound + 1)
    (read : json.tagged? medium tag variants = some (variant, body)) :
    body.depth ≤ bound + 1 := by
  cases json with
  | object fields =>
    by_cases once : Fields.occurrences fields tag ≤ 1
    · rw [tagged?_of_required? once] at read
      obtain ⟨_, -, same⟩ := Option.map_eq_some_iff.1 read
      cases same
      refine depth_object_le fun field member => Nat.lt_succ_iff.1 ?_
      exact (depth_lt_of_mem_fields (List.mem_of_mem_filter member)).trans_le nested
    · rw [tagged?_of_repeated once] at read
      contradiction
  | array items =>
    cases items with
    | nil => contradiction
    | cons first rest =>
      obtain ⟨_, -, same⟩ := Option.map_eq_some_iff.1 read
      cases same
      refine depth_array_le fun item member => Nat.lt_succ_iff.1 ?_
      exact (depth_lt_of_mem_items (List.mem_cons_of_mem first member)).trans_le nested
  | _ => contradiction

theorem RecordAlike.within (nested : json.depth ≤ bound + 1) (slots : List Slot) :
    RecordAlike (Within bound) medium slots json json := by
  rw [RecordAlike]
  cases read : json.record? medium (slots.map Slot.name) with
  | none => exact .none
  | some fields =>
    have below := depth_le_of_record? nested read
    exact .some (List.forall_iff_forall_mem.2 fun slot _ => slot.same_within below)

theorem NodeKind.DataAlike.within (nested : json.depth ≤ bound + 1) (kind : NodeKind) :
    kind.DataAlike (Within bound) medium json json := by
  rw [DataAlike]
  split
  · exact .within nested _
  · next tag _ =>
    cases read : json.tagged? medium tag kind.variants with
    | none => exact .none
    | some tagged => exact .some ⟨rfl, .within (depth_le_of_tagged? nested read) _⟩

theorem Place.agree_within {α : Type} {read read' : Json → Option α} (kind : NodeKind)
    (each : ∀ json : Json, json.depth ≤ bound → read json = read' json) :
    (Place.node kind).Agree (Within bound) read read' := by
  rintro json _ ⟨rfl, below⟩
  exact each json below

section Unbounded

variable {α : Type} (readWithin : Nat → Medium → Json → Option α)
  (readNode : Medium → (Json → Option α) → Json → Option α) (inside : Medium → Medium)

/-- A reader with a bound on the depth that reads one level at a time, and what is inside from a
medium of its own. -/
structure Descends : Prop where
  zero : ∀ medium json, readWithin 0 medium json = none
  succ : ∀ depth medium json, readWithin (depth + 1) medium json =
    readNode medium (readWithin depth (inside medium)) json
  flat : ∀ {medium json} read, json.depth = 0 → readNode medium read json = none
  congr : ∀ {bound medium json read read'}, json.depth ≤ bound + 1 →
    (∀ json : Json, json.depth ≤ bound → read json = read' json) →
      readNode medium read json = readNode medium read' json

variable {readWithin readNode inside}

theorem Descends.readWithin_succ (descends : Descends readWithin readNode inside) {bound : Nat}
    (nested : json.depth ≤ bound) :
    readWithin (bound + 1) medium json = readWithin bound medium json := by
  induction bound generalizing medium json with
  | zero => rw [descends.succ, descends.zero, descends.flat _ (Nat.le_zero.1 nested)]
  | succ bound ih =>
    rw [descends.succ (bound + 1), descends.succ bound]
    exact descends.congr nested fun json => ih

theorem Descends.readWithin_depth (descends : Descends readWithin readNode inside) (json : Json) :
    readWithin json.depth medium json =
      readNode medium (fun json => readWithin json.depth (inside medium) json) json := by
  -- a greater bound than the depth comes down to it step by step
  have enough {bound : Nat} {json : Json} {medium : Medium} (nested : json.depth ≤ bound) :
      readWithin bound medium json = readWithin json.depth medium json := by
    induction bound, nested using Nat.le_induction with
    | base => rfl
    | succ bound nested ih => rw [descends.readWithin_succ nested, ih]
  rw [← enough (Nat.le_succ json.depth), descends.succ]
  exact descends.congr (Nat.le_succ _) fun json => enough

end Unbounded

theorem TypeRef.read?_eq_readNode (json : Json) :
    read? medium json = readNode medium (read? medium) json := by
  have descends : Descends readWithin readNode id := {
    zero := fun _ _ => rfl
    succ := fun _ _ _ => rfl
    flat := fun _ flat => by rw [readNode, record?_of_flat flat]; rfl
    congr := fun nested each => readNode_congr (Place.agree_within _ each) (.within nested _) }
  exact descends.readWithin_depth json

theorem Expression.read?_eq_readNode (json : Json) :
    read? medium json = readNode medium (read? .held) json := by
  have descends : Descends readWithin readNode fun _ => .held := {
    zero := fun _ _ => rfl
    succ := fun _ _ _ => rfl
    flat := fun _ flat => by rw [readNode, tagged?_of_flat flat]; rfl
    congr := fun nested each =>
      readNode_congr (Place.agree_within _ fun _ _ => rfl) (Place.agree_within _ fun _ _ => rfl)
        (Place.agree_within _ each) (.within nested _) }
  exact descends.readWithin_depth json

theorem Statement.readCatch_within {read read' : Json → Option Statement}
    (each : ∀ json : Json, json.depth ≤ bound → read json = read' json) (json : Json)
    (below : json.depth ≤ bound) : readCatch medium read json = readCatch medium read' json :=
  readCatch_congr (Place.agree_within _ each) (.within (below.trans (Nat.le_succ _)) _)

theorem Statement.read?_eq_readNode (json : Json) :
    read? medium json = readNode medium (read? .held) json := by
  have descends : Descends readWithin readNode fun _ => .held := {
    zero := fun _ _ => rfl
    succ := fun _ _ _ => rfl
    flat := fun _ flat => by rw [readNode, tagged?_of_flat flat]; rfl
    congr := fun nested each =>
      readNode_congr (Place.agree_within _ fun _ _ => rfl) (Place.agree_within _ fun _ _ => rfl)
        (Place.agree_within _ each) (Place.agree_within _ (readCatch_within each))
        (.within nested _) }
  exact descends.readWithin_depth json

end Depth

end ApiClient.Tree
