import ApiClient.Proofs.Json.Fields

/-! What is found under a name when the fields of a record are changed.

A change at other names does not matter. The order of the fields of an object matters only for a
name that is repeated, where the first field is the one that is found. The fields of an array have
one name each.
-/

set_option autoImplicit false

namespace ApiClient.Json.Fields

theorem find?_append (front back : Fields) (wanted : String) :
    find? (front ++ back) wanted = (find? front wanted).or (find? back wanted) :=
  List.lookup_append

theorem occurrences_append (front back : Fields) (wanted : String) :
    occurrences (front ++ back) wanted = front.occurrences wanted + back.occurrences wanted :=
  List.countP_append

theorem occurrences_cons (name wanted : String) (value : Json) (fields : Fields) :
    occurrences ((name, value) :: fields) wanted =
      fields.occurrences wanted + if name = wanted then 1 else 0 := by
  simp [occurrences, List.countP_cons]

theorem mem_of_find? {fields : Fields} {wanted : String} {value : Json}
    (found : fields.find? wanted = some value) : (wanted, value) ∈ fields := by
  induction fields with
  | nil => contradiction
  | cons field rest ih =>
    obtain ⟨name, first⟩ := field
    rw [find?_cons] at found
    split at found
    · next same =>
      obtain rfl := Option.some.inj found
      exact same ▸ List.mem_cons_self
    · exact List.mem_cons_of_mem _ (ih found)

theorem find?_eq_none {fields : Fields} {wanted : String} (absent : wanted ∉ fields.map Prod.fst) :
    fields.find? wanted = none := by
  refine Option.eq_none_iff_forall_ne_some.2 fun value found => absent ?_
  exact List.mem_map_of_mem (mem_of_find? found)

theorem occurrences_eq_zero_iff {fields : Fields} {wanted : String} :
    fields.occurrences wanted = 0 ↔ wanted ∉ fields.map Prod.fst := by
  rw [occurrences, List.countP_eq_zero, List.mem_map]
  constructor
  · rintro none ⟨field, member, rfl⟩
    exact none field member (beq_self_eq_true _)
  · intro absent field member same
    exact absent ⟨field, member, eq_of_beq same⟩

section Middle

variable {front back : Fields} {name wanted : String} {value : Json}

theorem find?_middle_of_ne (other : wanted ≠ name) :
    find? (front ++ (name, value) :: back) wanted = find? (front ++ back) wanted := by
  rw [find?_append, find?_append, find?_cons, if_neg other]

theorem find?_middle_self (absent : name ∉ front.map Prod.fst) :
    find? (front ++ (name, value) :: back) name = some value := by
  rw [find?_append, find?_cons, if_pos rfl, find?_eq_none absent, Option.none_or]

theorem occurrences_middle :
    occurrences (front ++ (name, value) :: back) wanted =
      occurrences (front ++ back) wanted + if name = wanted then 1 else 0 := by
  rw [occurrences_append, occurrences_append, occurrences_cons, Nat.add_assoc]

end Middle

section Filtered

variable {fields : Fields} {name wanted : String}

theorem find?_filter_of_ne (other : wanted ≠ name) :
    find? (fields.filter (·.1 != name)) wanted = fields.find? wanted := by
  induction fields with
  | nil => rfl
  | cons field rest ih =>
    obtain ⟨first, value⟩ := field
    rw [List.filter_cons, find?_cons, ← ih]
    split
    · rw [find?_cons]
    · next same =>
      rw [if_neg]
      rintro rfl
      simp [other] at same

theorem occurrences_filter_of_ne (other : wanted ≠ name) :
    occurrences (fields.filter (·.1 != name)) wanted = fields.occurrences wanted := by
  refine (List.countP_filter ..).trans (List.countP_congr fun field _ => ?_)
  constructor
  · intro both
    exact (Bool.and_eq_true_iff.1 both).1
  · intro same
    simp_all

end Filtered

theorem occurrences_perm {fields others : Fields} (perm : fields.Perm others) (wanted : String) :
    fields.occurrences wanted = others.occurrences wanted :=
  perm.countP_eq _

theorem find?_perm {fields others : Fields} (perm : fields.Perm others) {wanted : String}
    (once : fields.occurrences wanted ≤ 1) : fields.find? wanted = others.find? wanted := by
  induction perm with
  | nil => rfl
  | @cons field rest _ _ ih =>
    obtain ⟨name, value⟩ := field
    rw [occurrences_cons] at once
    rw [find?_cons, find?_cons, ih (by omega)]
  | swap first second rest =>
    obtain ⟨name, value⟩ := first
    obtain ⟨other, next⟩ := second
    rw [occurrences_cons, occurrences_cons] at once
    simp only [find?_cons]
    split <;> split <;> simp_all
  | trans perm _ first second =>
    rw [first once, second (occurrences_perm perm wanted ▸ once)]

section Known

variable {fields : Fields} {names : List String}

theorem known?_of_once (once : ∀ name ∈ names, fields.occurrences name ≤ 1) :
    fields.known? names = some fields :=
  if_pos (by simpa using once)

theorem known?_of_repeated (repeated : ¬ ∀ name ∈ names, fields.occurrences name ≤ 1) :
    fields.known? names = none :=
  if_neg (by simpa using repeated)

end Known

theorem find?_zip {names : List String} (distinct : names.Nodup) {index : Nat}
    (inside : index < names.length) (items : List Json) :
    find? (names.zip items) names[index] = items[index]? := by
  induction names generalizing index items with
  | nil => contradiction
  | cons name rest ih =>
    obtain ⟨fresh, distinct⟩ := List.nodup_cons.1 distinct
    cases items with
    | nil => rfl
    | cons item others =>
      rw [List.zip_cons_cons, find?_cons]
      cases index with
      | zero => simp
      | succ index =>
        have inside := Nat.lt_of_succ_lt_succ inside
        have apart : rest[index] ≠ name := fun same => fresh (same ▸ List.getElem_mem _)
        simpa [apart] using ih distinct inside others

end ApiClient.Json.Fields
