import Mathlib.Logic.Relation
import ApiClient.Proofs.Tree.Readers

/-! Restated data is read as the same node.

Each single change leaves objects that are alike in every slot, where nodes are alike when they are
read as the same node or not read at all. A change inside of an object leaves the object alike
because it leaves the value alike at the place of its field.
-/

set_option autoImplicit false

namespace ApiClient.Tree

open ApiClient.Json

/-- Data that is read as the same node in every medium where it is read at all. -/
def ReadAlike (kind : NodeKind) (json other : Json) : Prop :=
  ∀ medium, kind.read? medium json = kind.read? medium other

theorem Place.agree_readAlike {α : Type} {kind : NodeKind} {medium : Medium}
    {read : Json → Option α} {node : α → Node} (injective : Function.Injective node)
    (reads : ∀ json, kind.read? medium json = (read json).map node) :
    (Place.node kind).Agree ReadAlike read read := by
  intro json other same
  have twin := same medium
  rw [reads, reads] at twin
  exact Option.map_injective injective twin

theorem Place.alike_refl (place : Place) (json : Json) : place.Alike ReadAlike json json :=
  alike_self (fun _ => True) (fun kind json _ _ => (rfl : kind.read? _ json = _))
    (fun _ _ _ _ => trivial) place trivial

theorem NodeKind.read?_congr {kind : NodeKind} {medium : Medium} {json other : Json}
    (compound : json.IsCompound ∧ other.IsCompound)
    (same : kind.DataAlike ReadAlike medium json other) :
    kind.read? medium json = kind.read? medium other := by
  -- every reader agrees with itself on what is alike by its own kind
  have types (medium : Medium) :
      (Place.node .type).Agree ReadAlike (TypeRef.read? medium) (TypeRef.read? medium) :=
    Place.agree_readAlike (fun _ _ => Node.type.inj) fun _ => rfl
  have literals : (Place.node .literal).Agree ReadAlike Literal.ofJson? Literal.ofJson? :=
    @Place.agree_readAlike _ _ .text _ _ (fun _ _ => Node.literal.inj) fun _ => rfl
  have expressions (medium : Medium) : (Place.node .expression).Agree ReadAlike
      (Expression.read? medium) (Expression.read? medium) :=
    Place.agree_readAlike (fun _ _ => Node.expression.inj) fun _ => rfl
  have statements (medium : Medium) : (Place.node .statement).Agree ReadAlike
      (Statement.read? medium) (Statement.read? medium) :=
    Place.agree_readAlike (fun _ _ => Node.statement.inj) fun _ => rfl
  have clauses : (Place.node .catchClause).Agree ReadAlike (CatchClause.read? .held)
      (CatchClause.read? .held) :=
    Place.agree_readAlike (fun _ _ => Node.catchClause.inj) fun _ => rfl
  have parameters (medium : Medium) : (Place.node .parameter).Agree ReadAlike
      (Parameter.read? medium) (Parameter.read? medium) :=
    Place.agree_readAlike (fun _ _ => Node.parameter.inj) fun _ => rfl
  have typeParams (medium : Medium) : (Place.node .typeParam).Agree ReadAlike
      (TypeParam.read? medium) (TypeParam.read? medium) :=
    Place.agree_readAlike (fun _ _ => Node.typeParam.inj) fun _ => rfl
  have members (medium : Medium) : (Place.node .member).Agree ReadAlike
      (Member.read? medium) (Member.read? medium) :=
    Place.agree_readAlike (fun _ _ => Node.member.inj) fun _ => rfl
  cases kind with
  | declaration =>
    exact congrArg (Option.map _) (Declaration.read?_congr types typeParams members same)
  | member =>
    exact congrArg (Option.map _)
      (Member.read?_congr types parameters expressions statements same)
  | method => exact congrArg (Option.map _) (Method.read?_congr types parameters statements same)
  | parameter => exact congrArg (Option.map _) (Parameter.read?_congr (types medium) same)
  | statement =>
    rw [read?, read?, Statement.read?_eq_readNode, Statement.read?_eq_readNode other,
      Statement.readNode_congr (types .held) (expressions .held) (statements .held) clauses same]
  | catchClause =>
    exact congrArg (Option.map _) (Statement.readCatch_congr (statements medium) same)
  | expression =>
    rw [read?, read?, Expression.read?_eq_readNode, Expression.read?_eq_readNode other,
      Expression.readNode_congr (types .held) literals (expressions .held) same]
  | literal =>
    rw [read?, read?, Literal.ofJson?_compound _ compound.1, Literal.ofJson?_compound _ compound.2]
  | type =>
    rw [read?, read?, TypeRef.read?_eq_readNode, TypeRef.read?_eq_readNode other,
      TypeRef.readNode_congr (types medium) same]
  | typeParam => exact congrArg (Option.map _) (TypeParam.read?_congr (types medium) same)

variable {fields others : Fields}

theorem Place.alike_object {place : Place} (wordless : place ≠ .word)
    (same : ∀ slot ∈ place.slots fields, slot.Alike ReadAlike fields others) :
    place.Alike ReadAlike (.object fields) (.object others) := by
  cases place with
  | plain => exact .inr ⟨trivial, trivial⟩
  | word => contradiction
  | node kind => exact fun medium => NodeKind.read?_congr ⟨trivial, trivial⟩ (.object same)
  | list items => exact .none

theorem Slot.alike_of_value {slot : Slot}
    (once : fields.occurrences slot.name ≤ 1 ↔ others.occurrences slot.name ≤ 1)
    (value : fields.occurrences slot.name ≤ 1 → slot.value fields = slot.value others) :
    slot.Alike ReadAlike fields others := by
  refine ⟨once, fun single => ?_⟩
  rw [Slot.Same, value single]
  cases slot.value others with
  | none => exact .none
  | some json => exact .some ⟨slot.place.alike_refl json, Iff.rfl⟩

theorem Slot.alike_of_perm (perm : fields.Perm others) (slot : Slot) :
    slot.Alike ReadAlike fields others := by
  refine alike_of_value (by rw [Fields.occurrences_perm perm]) fun single => ?_
  rw [value, value, Fields.find?_perm perm single]

section Middle

variable {front back : Fields} {name : String} {value other : Json} {slot : Slot}

theorem Slot.occurrences_middle_of_ne (apart : slot.name ≠ name) :
    Fields.occurrences (front ++ (name, value) :: back) slot.name =
      Fields.occurrences (front ++ back) slot.name := by
  rw [Fields.occurrences_middle, if_neg apart.symm, Nat.add_zero]

theorem Slot.value_middle_of_ne (apart : slot.name ≠ name) :
    slot.value (front ++ (name, value) :: back) = slot.value (front ++ back) := by
  rw [Slot.value, Slot.value, Fields.find?_middle_of_ne apart]

theorem Slot.value_middle_self (missing : slot.missing = some value)
    (absent : slot.name ∉ (front ++ back).map Prod.fst) :
    slot.value (front ++ (slot.name, value) :: back) = slot.value (front ++ back) := by
  have ahead : slot.name ∉ front.map Prod.fst := fun member =>
    absent (by rw [List.map_append]; exact List.mem_append_left _ member)
  rw [Slot.value, Slot.value, Fields.find?_middle_self ahead, Fields.find?_eq_none absent, missing]
  rfl

theorem Slot.occurrences_middle_self (absent : slot.name ∉ (front ++ back).map Prod.fst) :
    Fields.occurrences (front ++ (slot.name, value) :: back) slot.name = 1 := by
  rw [Fields.occurrences_middle, Fields.occurrences_eq_zero_iff.2 absent, if_pos rfl]

end Middle

theorem Place.slots_nodup (place : Place) (fields : Fields) :
    ((place.slots fields).map Slot.name).Nodup := by
  cases place with
  | node kind => exact kind.slotsOf_nodup _
  | _ => exact List.nodup_nil

theorem Place.ne_word_of_slot {place : Place} {slot : Slot} (member : slot ∈ place.slots fields) :
    place ≠ .word := by
  rintro rfl
  cases member

theorem Place.slot_unique {place : Place} {slot twin : Slot} (first : slot ∈ place.slots fields)
    (second : twin ∈ place.slots fields) (same : slot.name = twin.name) : slot = twin :=
  List.inj_on_of_nodup_map (place.slots_nodup fields) first second same

theorem Place.field_slot {place : Place} {slot : Slot} (member : slot ∈ place.slots fields) :
    place.field fields slot.name = slot.place := by
  have found : (place.slots fields).find? (·.name == slot.name) = some slot := by
    cases found : (place.slots fields).find? (·.name == slot.name) with
    | none =>
      have other := List.find?_eq_none.1 found slot member
      simp at other
    | some twin =>
      have same : twin.name = slot.name := by simpa using List.find?_some found
      rw [place.slot_unique (List.mem_of_find?_eq_some found) member same]
  unfold Place.field
  rw [found]
  cases place with
  | word => cases member
  | _ => rfl

theorem Place.value_written {place : Place} {front back : Fields} {slot twin : Slot} {value : Json}
    (first : slot ∈ place.slots fields) (second : twin ∈ place.slots fields)
    (missing : slot.missing = some value) (absent : slot.name ∉ (front ++ back).map Prod.fst) :
    (Fields.occurrences (front ++ (slot.name, value) :: back) twin.name ≤ 1 ↔
        Fields.occurrences (front ++ back) twin.name ≤ 1) ∧
      twin.value (front ++ (slot.name, value) :: back) = twin.value (front ++ back) := by
  by_cases same : twin.name = slot.name
  · obtain rfl := place.slot_unique second first same
    rw [Slot.occurrences_middle_self absent, Fields.occurrences_eq_zero_iff.2 absent]
    exact ⟨by decide, Slot.value_middle_self missing absent⟩
  · rw [Slot.occurrences_middle_of_ne same]
    exact ⟨Iff.rfl, Slot.value_middle_of_ne same⟩

theorem Restates.compound {place : Place} {json other : Json}
    (restated : Restates place json other) : json.IsCompound ∧ other.IsCompound := by
  cases restated <;> exact ⟨trivial, trivial⟩

theorem Slot.alike_of_field {place : Place} {front back : Fields} {name : String}
    {value other : Json} {slot : Slot}
    (member : slot ∈ place.slots (front ++ (name, value) :: back))
    (same : (place.field (front ++ (name, value) :: back) name).Alike ReadAlike value other)
    (compound : value.IsCompound ∧ other.IsCompound) :
    slot.Alike ReadAlike (front ++ (name, value) :: back) (front ++ (name, other) :: back) := by
  have once : Fields.occurrences (front ++ (name, value) :: back) slot.name =
      Fields.occurrences (front ++ (name, other) :: back) slot.name := by
    rw [Fields.occurrences_middle, Fields.occurrences_middle]
  by_cases named : slot.name = name
  · subst named
    rw [Place.field_slot member] at same
    refine ⟨by rw [once], fun single => ?_⟩
    -- the field is the only one of its name, so it is the one that is found
    rw [Fields.occurrences_middle, if_pos rfl, Fields.occurrences_append] at single
    have ahead : slot.name ∉ front.map Prod.fst := Fields.occurrences_eq_zero_iff.1 (by omega)
    rw [Same, Slot.value, Slot.value, Fields.find?_middle_self ahead,
      Fields.find?_middle_self ahead]
    exact .some ⟨same, iff_of_false compound.1.ne_null compound.2.ne_null⟩
  · refine alike_of_value (by rw [once]) fun _ => ?_
    rw [value_middle_of_ne named, value_middle_of_ne named]

section Words

variable {front back : Fields} {name : String} {value other : Json}

/-- Objects with several fields are no words. -/
theorem Place.alike_word_of_several (several : 2 ≤ fields.length) (many : 2 ≤ others.length) :
    Place.word.Alike ReadAlike (.object fields) (.object others) := by
  rcases fields with _ | ⟨_, _ | ⟨_, _⟩⟩
  · cases several
  · exact absurd several (Nat.lt_irrefl 1)
  · rcases others with _ | ⟨_, _ | ⟨_, _⟩⟩
    · cases many
    · exact absurd many (Nat.lt_irrefl 1)
    · exact fun medium => ⟨rfl, by simp⟩

theorem Place.alike_word_of_perm (perm : fields.Perm others) :
    Place.word.Alike ReadAlike (.object fields) (.object others) := by
  rcases fields with _ | ⟨only, _ | ⟨_, _⟩⟩
  · rw [perm.nil_eq]
    exact Place.word.alike_refl _
  · rw [List.singleton_perm.1 perm]
    exact Place.word.alike_refl _
  · refine Place.alike_word_of_several (Nat.le_add_left ..) ?_
    rw [← perm.length_eq]
    exact Nat.le_add_left ..

theorem Place.alike_word_of_field (same : Place.word.Alike ReadAlike value other) :
    Place.word.Alike ReadAlike (.object (front ++ (name, value) :: back))
      (.object (front ++ (name, other) :: back)) := by
  by_cases single : front ++ back = []
  · obtain ⟨rfl, rfl⟩ := List.append_eq_nil_iff.1 single
    intro medium
    rw [List.nil_append, List.nil_append, word?, word?, (same medium).2]
    exact ⟨rfl, by simp⟩
  · have length (json : Json) : 2 ≤ (front ++ (name, json) :: back).length := by
      have others := List.length_pos_iff.2 single
      simp only [List.length_append, List.length_cons] at others ⊢
      omega
    exact Place.alike_word_of_several (length value) (length other)

end Words

theorem Place.alike_array {place : Place} {front back : List Json} {value other : Json}
    (compound : value.IsCompound ∧ other.IsCompound)
    (same : (place.item (front ++ value :: back) front.length).Alike ReadAlike value other) :
    place.Alike ReadAlike (.array (front ++ value :: back)) (.array (front ++ other :: back)) := by
  cases place with
  | plain => exact .inr ⟨trivial, trivial⟩
  | word => cases front <;> exact fun medium => ⟨rfl, by simp⟩
  | node kind =>
    exact fun medium => NodeKind.read?_congr ⟨trivial, trivial⟩
      (.array Place.alike_refl compound same)
  | list items =>
    refine .some (List.rel_append ?_ (.cons same ?_))
    · exact List.forall₂_same.2 fun item _ => items.alike_refl item
    · exact List.forall₂_same.2 fun item _ => items.alike_refl item

theorem Restates.alike {place : Place} {json other : Json} (restated : Restates place json other) :
    place.Alike ReadAlike json other := by
  induction restated with
  | @reorder place _ _ perm =>
    by_cases word : place = .word
    · exact word ▸ Place.alike_word_of_perm perm
    · exact Place.alike_object word fun slot _ => slot.alike_of_perm perm
  | @add place front back name value wordless unknown =>
    refine Place.alike_object wordless fun slot member => ?_
    have apart : slot.name ≠ name := by
      rintro rfl
      exact unknown (List.mem_map_of_mem member)
    refine Slot.alike_of_value ?_ fun _ => (Slot.value_middle_of_ne apart).symm
    rw [Slot.occurrences_middle_of_ne apart]
  | write member missing absent =>
    refine Place.alike_object (Place.ne_word_of_slot member) fun twin second => ?_
    have written := Place.value_written member second missing absent
    exact Slot.alike_of_value written.1.symm fun _ => written.2.symm
  | leaveOut member missing absent =>
    refine Place.alike_object (Place.ne_word_of_slot member) fun twin second => ?_
    have written := Place.value_written member second missing absent
    exact Slot.alike_of_value written.1 fun _ => written.2
  | @inField place _ _ _ _ _ restated ih =>
    by_cases word : place = .word
    · subst word
      exact Place.alike_word_of_field ih
    · exact Place.alike_object word fun slot member =>
        Slot.alike_of_field member ih restated.compound
  | inItem restated ih => exact Place.alike_array restated.compound ih

theorem NodeKind.read?_of_restated {kind : NodeKind} {json other : Json}
    (restated : Relation.ReflTransGen (Restates (.node kind)) json other) (medium : Medium) :
    kind.read? medium other = kind.read? medium json := by
  induction restated with
  | refl => rfl
  | tail _ step ih => rw [← ih, step.alike medium]

/-- A node depends only on what its data says: however often the data is restated, it is read as the
same node, and it is not read when it was not read before. -/
theorem NodeKind.ofJson?_of_restated {kind : NodeKind} {json other : Json}
    (restated : Relation.ReflTransGen (Restates (.node kind)) json other) :
    kind.ofJson? other = kind.ofJson? json :=
  read?_of_restated restated .text

/-- A field of a class is still read when its type leaves a flag out, a null stands for its missing
start, and the tag comes last, after a field that is the tag of other nodes. -/
theorem NodeKind.ofJson?_of_restated_field :
    NodeKind.ofJson? .member (.object [("name", .string "size"), ("stmt", .integer 1),
      ("type", .object [("name", .string "int")]), ("init", .null), ("member", .string "field")]) =
      some (.member (.field "size" TypeRef.int none)) := by
  have flag := @Restates.leaveOut (.node .type) [("name", .string "int")] []
    (.flag "nullable") _ (.tail _ (.head _)) rfl (by decide)
  have inside := @Restates.inField (.node .member)
    [("member", .string "field"), ("name", .string "size")] [] "type" TypeRef.int.toJson
    (.object [("name", .string "int")]) flag
  have start := @Restates.write (.node .member)
    [("member", .string "field"), ("name", .string "size"),
      ("type", .object [("name", .string "int")])] [] (.optional "init" (.node .expression)) _
    (.tail _ (.tail _ (.tail _ (.head _)))) rfl (by decide)
  have foreign := @Restates.add (.node .member)
    [("member", .string "field"), ("name", .string "size")]
    [("type", .object [("name", .string "int")]), ("init", .null)] "stmt" (.integer 1)
    Place.noConfusion (by decide)
  have order := @Restates.reorder (.node .member) _ _
    (@List.perm_append_comm _ [("member", .string "field")]
      [("name", .string "size"), ("stmt", .integer 1),
        ("type", .object [("name", .string "int")]), ("init", .null)])
  have chain : Relation.ReflTransGen (Restates (.node .member)) _ _ :=
    (((Relation.ReflTransGen.single inside).tail start).tail foreign).tail order
  exact (ofJson?_of_restated chain).trans
    (Node.read?_toJson (.member (.field "size" TypeRef.int none)) .text)

end ApiClient.Tree
