import ApiClient.Proofs.Json.Lookup
import ApiClient.Proofs.Tree.Format

/-! Reading nodes from data that is alike.

What a node is read as depends on what stands in its slots and on nothing else, whether an object or
an array fills them. In which sense the nodes inside are alike is left open: readers that agree on
them agree on the node.
-/

set_option autoImplicit false

namespace ApiClient

open Json

/-- Lists and objects, which do not stand for plain values. -/
def Json.IsCompound : Json → Prop
  | .array _ => True
  | .object _ => True
  | _ => False

theorem Json.forall_compound {property : Json → Prop} (array : ∀ items, property (.array items))
    (object : ∀ fields, property (.object fields)) (json : Json) (compound : json.IsCompound) :
    property json := by
  cases json with
  | array items => exact array items
  | object fields => exact object fields
  | _ => exact compound.elim

theorem Json.IsCompound.ne_null {json : Json} (compound : json.IsCompound) : json ≠ .null := by
  rintro rfl
  exact compound

namespace Tree

section Alike

variable (alike : NodeKind → Json → Json → Prop)

/-- Data that is alike at a place; all lists and objects are alike where they are out of place. -/
def Place.Alike : Place → Json → Json → Prop
  | .plain, json, other => json = other ∨ json.IsCompound ∧ other.IsCompound
  | .word, json, other => ∀ medium : Medium,
    json.word? medium = other.word? medium ∧ medium.isUnit json = medium.isUnit other
  | .node kind, json, other => alike kind json other
  | .list items, json, other => Option.Rel (List.Forall₂ items.Alike) json.items? other.items?

/-- What stands in the field of a slot, or what it stands for where it is left out. -/
def Slot.value (slot : Slot) (fields : Fields) : Option Json :=
  (fields.find? slot.name).or slot.missing

/-- Alike values in a slot; null is told apart because it may stand for a field that is left out. -/
def Slot.Same (slot : Slot) (fields others : Fields) : Prop :=
  Option.Rel (fun json other => slot.place.Alike alike json other ∧ (json = .null ↔ other = .null))
    (slot.value fields) (slot.value others)

/-- Objects that are alike in a slot. A field that is repeated is refused whatever it holds. -/
structure Slot.Alike (slot : Slot) (fields others : Fields) : Prop where
  once : fields.occurrences slot.name ≤ 1 ↔ others.occurrences slot.name ≤ 1
  same : fields.occurrences slot.name ≤ 1 → slot.Same alike fields others

/-- Records that are alike in each slot, or data that is no record in both cases. -/
def RecordAlike (medium : Medium) (slots : List Slot) (json other : Json) : Prop :=
  Option.Rel (fun fields others => List.Forall (Slot.Same alike · fields others) slots)
    (json.record? medium (slots.map Slot.name)) (other.record? medium (slots.map Slot.name))

/-- Data of nodes that is alike in each slot; that of tagged nodes is of the same variant. -/
def NodeKind.DataAlike (kind : NodeKind) (medium : Medium) (json other : Json) : Prop :=
  match kind.tag? with
  | none => RecordAlike alike medium (kind.parts "") json other
  | some tag =>
    Option.Rel (fun one two => one.1 = two.1 ∧
        RecordAlike alike .held (kind.parts one.1) one.2 two.2)
      (json.tagged? medium tag kind.variants) (other.tagged? medium tag kind.variants)

def Place.Agree {α : Type} (place : Place) (read read' : Json → Option α) : Prop :=
  ∀ json other, place.Alike alike json other → read json = read' other

end Alike

variable {alike : NodeKind → Json → Json → Prop} {α : Type}

theorem bind_congr_of_rel {β : Type} {relation : β → β → Prop} {first second : Option β}
    {read read' : β → Option α} (related : Option.Rel relation first second)
    (each : ∀ one other, relation one other → read one = read' other) :
    first >>= read = second >>= read' := by
  cases related with
  | none => rfl
  | some both => exact each _ _ both

/-- Data is alike to itself at any place where the nodes that may be inside of it are. -/
theorem Place.alike_self (inside : Json → Prop)
    (nodes : ∀ kind json, inside json → alike kind json json)
    (items : ∀ list, inside (.array list) → ∀ item ∈ list, inside item) (place : Place)
    {json : Json} (holds : inside json) : place.Alike alike json json := by
  induction place generalizing json with
  | plain => exact .inl rfl
  | word => exact fun _ => ⟨rfl, rfl⟩
  | node kind => exact nodes kind json holds
  | list place ih =>
    rw [Place.Alike]
    cases json with
    | array list =>
      exact .some (List.forall₂_same.2 fun item member => ih (items list holds item member))
    | _ => exact .none

theorem Place.Agree.plain {read : Json → Option α}
    (refuses : ∀ json : Json, json.IsCompound → read json = none) :
    Place.plain.Agree alike read read := by
  rintro json other (rfl | ⟨first, second⟩)
  · rfl
  · rw [refuses json first, refuses other second]

theorem Place.Agree.word {ofName? : String → Option α} {medium : Medium} :
    Place.word.Agree alike (named? ofName? medium) (named? ofName? medium) := by
  intro json other same
  rw [named?, named?, (same medium).1]

theorem Place.Agree.list {place : Place} {read read' : Json → Option α}
    (agree : place.Agree alike read read') :
    (Place.list place).Agree alike (listOf? read) (listOf? read') := by
  intro json other same
  refine bind_congr_of_rel same fun items others same => ?_
  induction same with
  | nil => rfl
  | cons first _ ih => rw [List.mapM_cons, List.mapM_cons, agree _ _ first, ih]

section Slots

variable {fields others : Fields} {slot : Slot} {place : Place} {name : String}
  {read read' : Json → Option α}

theorem Slot.Same.bind (same : slot.Same alike fields others)
    (agree : ∀ json other, slot.place.Alike alike json other → (json = .null ↔ other = .null) →
      read json = read' other) :
    slot.value fields >>= read = slot.value others >>= read' :=
  bind_congr_of_rel same fun json other both => agree json other both.1 both.2

theorem required?_congr (same : (Slot.required name place).Same alike fields others)
    (agree : place.Agree alike read read') :
    fields.required? name read = others.required? name read' := by
  have value (fields : Fields) : (Slot.required name place).value fields = fields.find? name :=
    Option.or_none
  have bound := same.bind fun json other same _ => agree json other same
  rwa [value, value] at bound

theorem Slot.Same.default? {missing : α} {value : Json} (same : slot.Same alike fields others)
    (stands : slot.missing = some value) (reads : read value = some missing)
    (reads' : read' value = some missing) (agree : slot.place.Agree alike read read') :
    fields.default? slot.name missing read = others.default? slot.name missing read' := by
  have unfolded {read : Json → Option α} (reads : read value = some missing) (fields : Fields) :
      fields.default? slot.name missing read = slot.value fields >>= read := by
    rw [Fields.default?, Slot.value, stands]
    cases fields.find? slot.name with
    | none => exact reads.symm
    | some _ => rfl
  rw [unfolded reads, unfolded reads']
  exact same.bind fun json other same _ => agree json other same

theorem list?_congr (same : (Slot.list name place).Same alike fields others)
    (agree : place.Agree alike read read') :
    fields.default? name [] (listOf? read) = others.default? name [] (listOf? read') :=
  same.default? rfl rfl rfl agree.list

theorem choice?_congr {usual : String} {missing : α} {ofName? : String → Option α}
    {medium : Medium} (same : (Slot.choice name usual).Same alike fields others)
    (named : ofName? usual = some missing) :
    fields.default? name missing (named? ofName? medium) =
      others.default? name missing (named? ofName? medium) :=
  same.default? rfl named named .word

def orNull? (read : Json → Option α) : Json → Option (Option α)
  | .null => some none
  | json => (read json).map some

theorem orNull?_of_ne_null {json : Json} (filled : json ≠ .null) :
    orNull? read json = (read json).map some := by
  cases json with
  | null => exact absurd rfl filled
  | _ => rfl

theorem optional?_congr (same : (Slot.optional name place).Same alike fields others)
    (agree : place.Agree alike read read') :
    fields.optional? name read = others.optional? name read' := by
  have unfolded (read : Json → Option α) (fields : Fields) :
      fields.optional? name read = (Slot.optional name place).value fields >>= orNull? read := by
    rw [Fields.optional?, Slot.value, Slot.name, Slot.missing]
    cases fields.find? name with
    | none => rfl
    | some json => cases json <;> rfl
  rw [unfolded, unfolded]
  refine same.bind fun json other same null => ?_
  by_cases missing : json = .null
  · rw [missing, null.1 missing]
    rfl
  · rw [orNull?_of_ne_null missing, orNull?_of_ne_null (mt null.2 missing),
      agree json other same]

end Slots

section Plain

variable {fields others : Fields} {name : String}

theorem string?_compound : ∀ json : Json, json.IsCompound → json.string? = none :=
  forall_compound (fun _ => rfl) (fun _ => rfl)

theorem bool?_compound : ∀ json : Json, json.IsCompound → json.bool? = none :=
  forall_compound (fun _ => rfl) (fun _ => rfl)

theorem text?_congr (same : (Slot.plain name).Same alike fields others) :
    fields.required? name Json.string? = others.required? name Json.string? :=
  required?_congr same (.plain string?_compound)

theorem flag?_congr (same : (Slot.flag name).Same alike fields others) :
    fields.default? name false Json.bool? = others.default? name false Json.bool? :=
  same.default? rfl rfl rfl (.plain bool?_compound)

end Plain

section Objects

variable {fields others : Fields} {medium : Medium}

theorem RecordAlike.object {slots : List Slot}
    (same : ∀ slot ∈ slots, slot.Alike alike fields others) :
    RecordAlike alike medium slots (.object fields) (.object others) := by
  have twin : (∀ name ∈ slots.map Slot.name, fields.occurrences name ≤ 1) ↔
      ∀ name ∈ slots.map Slot.name, others.occurrences name ≤ 1 := by
    rw [List.forall_mem_map, List.forall_mem_map]
    exact forall₂_congr fun slot member => (same slot member).once
  rw [RecordAlike, record?, record?]
  -- a repeated field is refused in both objects, whatever stands in the others
  by_cases once : ∀ name ∈ slots.map Slot.name, fields.occurrences name ≤ 1
  · rw [Fields.known?_of_once once, Fields.known?_of_once (twin.1 once)]
    refine .some (List.forall_iff_forall_mem.2 fun slot member => ?_)
    exact (same slot member).same (once _ (List.mem_map_of_mem member))
  · rw [Fields.known?_of_repeated once, Fields.known?_of_repeated (twin.not.1 once)]
    exact .none

variable {tag : String}

theorem Slot.Alike.filter {slot : Slot} (same : slot.Alike alike fields others)
    (other : slot.name ≠ tag) :
    slot.Alike alike (fields.filter (·.1 != tag)) (others.filter (·.1 != tag)) := by
  obtain ⟨once, same⟩ := same
  constructor
  · rwa [Fields.occurrences_filter_of_ne other, Fields.occurrences_filter_of_ne other]
  · intro single
    rw [Fields.occurrences_filter_of_ne other] at single
    have value (fields : Fields) : slot.value (fields.filter (·.1 != tag)) = slot.value fields := by
      rw [Slot.value, Slot.value, Fields.find?_filter_of_ne other]
    rw [Slot.Same, value, value]
    exact same single

theorem variant?_held {json : Json} {variants : List String} {variant : String}
    (named : json.variant? medium variants = some variant) :
    json.variant? .held variants = some variant := by
  cases json with
  | string text => exact named
  | integer value =>
    cases value with
    | ofNat index =>
      rw [variant?] at named ⊢
      split at named
      · rwa [if_pos (.inr rfl)]
      · contradiction
    | negSucc index => contradiction
  | _ => contradiction

theorem variant?_compound (variants : List String) :
    ∀ json : Json, json.IsCompound → json.variant? medium variants = none :=
  forall_compound (fun _ => rfl) (fun _ => rfl)

theorem tagged?_of_required? {variants : List String} (once : fields.occurrences tag ≤ 1) :
    (Json.object fields).tagged? medium tag variants =
      (fields.required? tag (·.variant? medium variants)).map
        (·, .object (fields.filter (·.1 != tag))) := by
  have known : fields.known? [tag] = some fields :=
    Fields.known?_of_once (List.forall_mem_singleton.2 once)
  rw [tagged?, known]
  change fields.required? tag _ >>= _ = _
  cases fields.required? tag (·.variant? medium variants) <;> rfl

theorem tagged?_of_repeated {variants : List String} (repeated : ¬ fields.occurrences tag ≤ 1) :
    (Json.object fields).tagged? medium tag variants = none := by
  have known : fields.known? [tag] = none :=
    Fields.known?_of_repeated (mt List.forall_mem_singleton.1 repeated)
  rw [tagged?, known]
  rfl

theorem NodeKind.DataAlike.object {kind : NodeKind}
    (same : ∀ slot ∈ (Place.node kind).slots fields, slot.Alike alike fields others) :
    kind.DataAlike alike medium (.object fields) (.object others) := by
  rw [Place.slots] at same
  rw [DataAlike]
  split
  · next untagged =>
    rw [slotsOf_of_no_tag untagged] at same
    exact .object same
  · next tag named =>
    have distinct := kind.slotsOf_nodup (fields.find? tag)
    rw [named, slotsOf_of_tag named] at same
    rw [slotsOf_of_tag named] at distinct
    obtain ⟨tagged, parts⟩ := List.forall_mem_cons.1 same
    by_cases once : fields.occurrences tag ≤ 1
    · have twin : others.occurrences tag ≤ 1 := tagged.once.1 once
      rw [tagged?_of_required? once, tagged?_of_required? twin,
        ← required?_congr (tagged.same once) (.plain (variant?_compound _))]
      -- without a tag both are refused; with one, both have the slots of the same variant
      cases found : fields.required? tag (·.variant? medium kind.variants) with
      | none => exact .none
      | some variant =>
        obtain ⟨json, there, names⟩ := Option.bind_eq_some_iff.1 found
        have variant : kind.variantOf (fields.find? tag) = variant := by
          rw [there]
          exact congrArg (·.getD "") (variant?_held names)
        rw [variant] at distinct
        refine .some ⟨rfl, .object fun slot member => ?_⟩
        refine (parts slot (by rw [← variant] at member; exact member)).filter ?_
        rintro rfl
        exact (List.nodup_cons.1 distinct).1 (List.mem_map.2 ⟨slot, member, rfl⟩)
    · have twin : ¬ others.occurrences tag ≤ 1 := tagged.once.not.1 once
      rw [tagged?_of_repeated once, tagged?_of_repeated twin]
      exact .none

end Objects

section Arrays

theorem getElem?_middle_of_ne {front back : List Json} {index : Nat} (apart : index ≠ front.length)
    (value other : Json) :
    (front ++ value :: back)[index]? = (front ++ other :: back)[index]? := by
  rw [List.getElem?_append, List.getElem?_append]
  split
  · rfl
  · obtain ⟨beyond, rest⟩ : ∃ beyond, index - front.length = beyond + 1 :=
      Nat.exists_eq_succ_of_ne_zero (by omega)
    rw [rest, List.getElem?_cons_succ, List.getElem?_cons_succ]

variable {front back : List Json} {value other : Json} {medium : Medium}
  (refl : ∀ (place : Place) (json : Json), place.Alike alike json json)
  (compound : value.IsCompound ∧ other.IsCompound)
include refl compound

/-- Arrays that differ in one item are alike as records when that item is alike at the place of the
slot that it fills. -/
theorem RecordAlike.array {slots : List Slot} (distinct : (slots.map Slot.name).Nodup)
    (same : ((slots[front.length]?.map Slot.place).getD .plain).Alike alike value other) :
    RecordAlike alike medium slots (.array (front ++ value :: back))
      (.array (front ++ other :: back)) := by
  have lengths : (front ++ value :: back).length = (front ++ other :: back).length := by simp
  rw [RecordAlike, record?, record?, lengths]
  split
  · refine .some (List.forall_iff_forall_mem.2 fun slot member => ?_)
    obtain ⟨index, inside, rfl⟩ := List.getElem_of_mem member
    have stands (items : List Json) : slots[index].value ((slots.map Slot.name).zip items) =
        items[index]?.or slots[index].missing := by
      rw [Slot.value, ← Fields.find?_zip distinct (by simpa using inside), List.getElem_map]
    rw [Slot.Same, stands, stands]
    by_cases here : index = front.length
    · subst here
      rw [List.getElem?_eq_getElem inside] at same
      rw [List.getElem?_append_right le_rfl, List.getElem?_append_right le_rfl, Nat.sub_self]
      exact .some ⟨same, iff_of_false compound.1.ne_null compound.2.ne_null⟩
    · rw [getElem?_middle_of_ne here value other]
      cases (front ++ other :: back)[index]?.or slots[index].missing with
      | none => exact .none
      | some json => exact .some ⟨refl _ json, Iff.rfl⟩
  · exact .none

theorem NodeKind.DataAlike.array {kind : NodeKind}
    (same : ((Place.node kind).item (front ++ value :: back) front.length).Alike alike value
      other) :
    kind.DataAlike alike medium (.array (front ++ value :: back))
      (.array (front ++ other :: back)) := by
  rw [Place.item] at same
  have distinct := kind.slotsOf_nodup (front ++ value :: back).head?
  rw [DataAlike]
  split
  · next untagged =>
    rw [slotsOf_of_no_tag untagged] at same distinct
    exact .array refl compound distinct same
  · next tag named =>
    rw [slotsOf_of_tag named] at same distinct
    cases front with
    | nil =>
      -- the tag is neither a text nor a number
      rw [List.nil_append, List.nil_append, tagged?, tagged?, variant?_compound _ _ compound.1,
        variant?_compound _ _ compound.2]
      exact .none
    | cons first rest =>
      rw [List.cons_append, List.cons_append, tagged?, tagged?]
      cases names : first.variant? medium kind.variants with
      | none => exact .none
      | some variant =>
        have variant : kind.variantOf ((first :: rest) ++ value :: back).head? = variant :=
          congrArg (·.getD "") (variant?_held names)
        rw [variant] at same distinct
        exact .some ⟨rfl, .array refl compound (List.nodup_cons.1 distinct).2 same⟩

end Arrays

end Tree

end ApiClient
