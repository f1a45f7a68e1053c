import Mathlib.Data.List.Nodup
import ApiClient.Json.Fields

/-! Reading the fields of an object that has just been written.

The laws follow the list of fields from its front: a field that is looked for is found there, any
other is passed over. No name of a written object is repeated, so such an object passes as a record.
-/

set_option autoImplicit false

namespace ApiClient.Json

namespace Fields

variable {α : Type} (read : Json → Option α) (missing : α)

@[simp]
theorem find?_cons (name wanted : String) (value : Json) (fields : Fields) :
    find? ((name, value) :: fields) wanted =
      if wanted = name then some value else find? fields wanted := by
  unfold find?
  rw [List.lookup_cons]
  by_cases same : wanted = name
  · simp [same]
  · simp [same, beq_false_of_ne same]

@[simp]
theorem required?_cons (name wanted : String) (value : Json) (fields : Fields) :
    required? ((name, value) :: fields) wanted read =
      if wanted = name then read value else required? fields wanted read := by
  unfold required?
  rw [find?_cons]
  split <;> rfl

@[simp]
theorem default?_nil (wanted : String) : default? [] wanted missing read = some missing := rfl

@[simp]
theorem default?_cons (name wanted : String) (value : Json) (fields : Fields) :
    default? ((name, value) :: fields) wanted missing read =
      if wanted = name then read value else default? fields wanted missing read := by
  unfold default?
  rw [find?_cons]
  by_cases same : wanted = name
  · rw [if_pos same, if_pos same]
  · rw [if_neg same, if_neg same]

@[simp]
theorem optional?_nil (wanted : String) : optional? [] wanted read = some none := rfl

theorem optional?_cons_self (name : String) {value : Json} (filled : value ≠ .null)
    (fields : Fields) :
    optional? ((name, value) :: fields) name read = (read value).map some := by
  unfold optional?
  rw [find?_cons, if_pos rfl]
  split <;> simp_all

theorem optional?_cons_of_ne {name wanted : String} (other : wanted ≠ name) (value : Json)
    (fields : Fields) :
    optional? ((name, value) :: fields) wanted read = optional? fields wanted read := by
  unfold optional?
  rw [find?_cons, if_neg other]

theorem known?_of_nodup {fields : Fields} (distinct : (fields.map Prod.fst).Nodup)
    (names : List String) : known? fields names = some fields := by
  have once : ∀ name, fields.occurrences name ≤ 1 := by
    intro name
    have count := List.nodup_iff_count_le_one.1 distinct name
    rwa [List.count, List.countP_map] at count
  unfold known?
  rw [if_pos (List.all_eq_true.2 fun name _ => decide_eq_true (once name))]

end Fields

variable (medium : Medium)

@[simp]
theorem named?_string {α : Type} (ofName? : String → Option α) (text : String) :
    named? ofName? medium (.string text) = ofName? text := rfl

@[simp]
theorem isUnit_object_cons (field : String × Json) (fields : Fields) :
    medium.isUnit (.object (field :: fields)) = false := by
  cases medium <;> rfl

@[simp]
theorem isUnit_array_cons (item : Json) (items : List Json) :
    medium.isUnit (.array (item :: items)) = false := by
  cases medium <;> rfl

theorem word?_object_cons_cons (first second : String × Json) (fields : Fields) :
    word? (.object (first :: second :: fields)) medium = none := rfl

theorem record?_object {fields : Fields} (distinct : (fields.map Prod.fst).Nodup)
    (names : List String) : record? (.object fields) medium names = some fields :=
  Fields.known?_of_nodup distinct names

theorem tagged?_object {tag variant : String} {fields : Fields}
    (untagged : tag ∉ fields.map Prod.fst) (variants : List String) :
    tagged? (.object ((tag, .string variant) :: fields)) medium tag variants =
      some (variant, .object fields) := by
  have others : fields.filter (·.1 != tag) = fields := by
    refine List.filter_eq_self.2 fun field member => ?_
    have name : field.1 ≠ tag := by
      rintro rfl
      exact untagged (List.mem_map_of_mem member)
    simpa using name
  have once : Fields.known? ((tag, .string variant) :: fields) [tag] =
      some ((tag, .string variant) :: fields) := by
    have none : fields.countP (fun field => field.1 == tag) = 0 := by
      refine List.countP_eq_zero.2 fun field member same => untagged ?_
      rw [← eq_of_beq same]
      exact List.mem_map_of_mem member
    simp [Fields.known?, Fields.occurrences, none]
  simp [tagged?, once, variant?, others]

theorem listOf?_map {α : Type} {read : Json → Option α} {write : α → Json} {values : List α}
    (each : ∀ value ∈ values, read (write value) = some value) :
    listOf? read (.array (values.map write)) = some values := by
  have all : (values.map write).mapM read = some values := by
    induction values with
    | nil => rfl
    | cons value rest ih =>
      obtain ⟨first, later⟩ := List.forall_mem_cons.1 each
      simp [List.mapM_cons, first, ih later]
  exact all

end ApiClient.Json
