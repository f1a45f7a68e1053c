import ApiClient.Json.Parser
import ApiClient.Json.Printer
import ApiClient.Proofs.Json.Numeral
import ApiClient.Proofs.Json.Quoted

/-! Data reads back from its text as it was written.

A value is written without blanks and ends where something follows that can follow a value, so it is
read whole in the middle of an array or an object. The limit on nesting counts down with each level,
and a value passes if it is nested no deeper than the limit says.
-/

set_option autoImplicit false

namespace ApiClient.Json

open ApiClient.Number

/-- Data whose numbers keep their values in a text. -/
inductive Writable : Json → Prop where
  | null : Writable .null
  | bool (value : Bool) : Writable (.bool value)
  | integer {value : Int} (fits : Numeral.IsWord value) : Writable (.integer value)
  | double {value : Binary64} (readsBack : ReadsBack value) : Writable (.double value)
  | string (text : String) : Writable (.string text)
  | array {items : List Json} (each : ∀ item ∈ items, Writable item) : Writable (.array items)
  | object {fields : List (String × Json)} (each : ∀ field ∈ fields, Writable field.2) :
    Writable (.object fields)

attribute [simp] Writable.null Writable.bool Writable.string

theorem writable_array_iff {items : List Json} :
    Writable (.array items) ↔ ∀ item ∈ items, Writable item :=
  ⟨fun | .array each => each, .array⟩

@[simp]
theorem writable_object_iff {fields : List (String × Json)} :
    Writable (.object fields) ↔ ∀ field ∈ fields, Writable field.2 :=
  ⟨fun | .object each => each, .object⟩

theorem depth_lt_of_mem_items {item : Json} {items : List Json} (member : item ∈ items) :
    item.depth < (array items).depth := by
  rw [depth, Nat.lt_succ_iff]
  induction items with
  | nil => contradiction
  | cons first rest ih =>
    rw [depthOfItems]
    rcases List.mem_cons.1 member with rfl | later
    · exact Nat.le_max_left ..
    · exact (ih later).trans (Nat.le_max_right ..)

theorem depth_lt_of_mem_fields {field : String × Json} {fields : List (String × Json)}
    (member : field ∈ fields) : field.2.depth < (object fields).depth := by
  rw [depth, Nat.lt_succ_iff]
  induction fields with
  | nil => contradiction
  | cons first rest ih =>
    obtain ⟨name, value⟩ := first
    rw [depthOfFields]
    rcases List.mem_cons.1 member with rfl | later
    · exact Nat.le_max_left ..
    · exact (ih later).trans (Nat.le_max_right ..)

theorem depth_array_le {items : List Json} {bound : Nat}
    (each : ∀ item ∈ items, item.depth ≤ bound) : (array items).depth ≤ bound + 1 := by
  rw [depth, Nat.add_le_add_iff_right]
  induction items with
  | nil => exact Nat.zero_le _
  | cons first rest ih =>
    obtain ⟨here, later⟩ := List.forall_mem_cons.1 each
    exact Nat.max_le.2 ⟨here, ih later⟩

theorem depth_object_le {fields : List (String × Json)} {bound : Nat}
    (each : ∀ field ∈ fields, field.2.depth ≤ bound) : (object fields).depth ≤ bound + 1 := by
  rw [depth, Nat.add_le_add_iff_right]
  induction fields with
  | nil => exact Nat.zero_le _
  | cons first rest ih =>
    obtain ⟨here, later⟩ := List.forall_mem_cons.1 each
    exact Nat.max_le.2 ⟨here, ih later⟩

def Begins (cs : List Char) : Prop :=
  ∃ c tail, cs = c :: tail ∧ c ∉ [' ', '\t', '\n', '\r', ']', '\x7d']

theorem Begins.of_head {c : Char} {tail : List Char}
    (other : c ∉ [' ', '\t', '\n', '\r', ']', '\x7d']) : Begins (c :: tail) :=
  ⟨c, tail, rfl, other⟩

theorem Begins.append {cs : List Char} (begins : Begins cs) (rest : List Char) :
    Begins (cs ++ rest) := by
  obtain ⟨c, tail, rfl, other⟩ := begins
  exact .of_head other

theorem Begins.skipBlank_eq {cs : List Char} (begins : Begins cs) : skipBlank cs = cs := by
  obtain ⟨c, tail, rfl, other⟩ := begins
  simp_all [skipBlank]

theorem Begins.of_read? {cs : List Char} {value : Json} {left : List Char}
    (read : Numeral.read? cs = some (value, left)) : Begins cs := by
  obtain ⟨c, tail, rfl, first⟩ := Numeral.exists_of_read? read
  refine .of_head fun member => ?_
  rcases first with rfl | digit
  · exact absurd member (by decide)
  · revert member digit
    simp only [List.mem_cons, List.not_mem_nil, or_false]
    rintro (rfl | rfl | rfl | rfl | rfl | rfl) <;> decide

section Groups

variable {α : Type} {item : Reader α} {write : α → String} {close : Char}

/-- Whatever can follow a value, an item is read to its end. -/
def ReadsItem (item : Reader α) (write : α → String) (value : α) : Prop :=
  ∀ rest, Follows rest → item ((write value).toList ++ rest) = some (value, rest)

def Closes (close : Char) : Prop :=
  close = ']' ∨ close = '\x7d'

theorem Closes.follows (closes : Closes close) (rest : List Char) : Follows (close :: rest) :=
  .inr closes

theorem Closes.skipBlank_eq (closes : Closes close) (rest : List Char) :
    skipBlank (close :: rest) = close :: rest := by
  rcases closes with rfl | rfl <;> rfl

theorem readItems_intercalate (closes : Closes close) (first : α) (others : List α)
    (each : ∀ value ∈ first :: others, ReadsItem item write value) {fuel : Nat}
    (enough : others.length < fuel) (rest : List Char) :
    readItems item close fuel
        ((",".intercalate ((first :: others).map write)).toList ++ close :: rest) =
      some (first :: others, rest) := by
  -- each item but the last is followed by a comma, which can follow a value
  induction others generalizing first fuel with
  | nil =>
    obtain ⟨fuel, rfl⟩ := Nat.exists_eq_add_of_lt enough
    have read := each first (by simp) (close :: rest) (closes.follows rest)
    simp [readItems, read, closes.skipBlank_eq]
  | cons next others ih =>
    obtain ⟨fuel, rfl⟩ := Nat.exists_eq_succ_of_ne_zero (Nat.ne_of_gt (Nat.zero_lt_of_lt enough))
    obtain ⟨here, later⟩ := List.forall_mem_cons.1 each
    have comma : ',' ≠ close := by
      rintro rfl
      rcases closes with eq | eq <;> exact absurd eq (by decide)
    have more := ih next later (Nat.lt_of_succ_lt_succ enough)
    have read := here (',' :: ((",".intercalate ((next :: others).map write)).toList ++
      close :: rest)) (.inl rfl)
    have text : (",".intercalate ((first :: next :: others).map write)).toList ++ close :: rest =
        (write first).toList ++ ',' :: ((",".intercalate ((next :: others).map write)).toList ++
          close :: rest) := by
      simp [String.intercalate_cons_cons]
    have blank : ∀ tail, skipBlank (',' :: tail) = ',' :: tail := fun _ => rfl
    rw [text, readItems, read]
    simp only [Option.bind_eq_bind, Option.bind_some, blank, comma, if_false, if_true, more]
    rfl

theorem length_lt_length_intercalate (first : α) (others : List α)
    (begins : ∀ value ∈ first :: others, Begins (write value).toList) :
    others.length < (",".intercalate ((first :: others).map write)).toList.length := by
  induction others generalizing first with
  | nil =>
    obtain ⟨c, tail, text, -⟩ := begins first (by simp)
    simp [text]
  | cons next others ih =>
    have later := ih next fun value member => begins value (List.mem_cons_of_mem first member)
    simp only [List.map_cons, String.intercalate_cons_cons, String.toList_append,
      List.length_append, List.length_cons] at later ⊢
    have comma : ",".toList.length = 1 := by decide
    omega

theorem readGroup_intercalate (closes : Closes close) (items : List α)
    (each : ∀ value ∈ items, ReadsItem item write value)
    (begins : ∀ value ∈ items, Begins (write value).toList) (rest : List Char) :
    readGroup item close ((",".intercalate (items.map write)).toList ++ close :: rest) =
      some (items, rest) := by
  cases items with
  | nil =>
    simp [readGroup, closes.skipBlank_eq]
  | cons first others =>
    have bound := length_lt_length_intercalate first others begins
    have enough : others.length <
        ((",".intercalate ((first :: others).map write)).toList ++ close :: rest).length := by
      rw [List.length_append]
      omega
    have read := readItems_intercalate closes first others each enough rest
    -- the text begins with the first item
    have start : Begins (",".intercalate ((first :: others).map write)).toList := by
      have head := begins first (by simp)
      cases others with
      | nil => simpa using head
      | cons next others =>
        simp only [List.map_cons, String.intercalate_cons_cons, String.toList_append,
          List.append_assoc]
        exact head.append _
    obtain ⟨c, tail, text, other⟩ := start.append (close :: rest)
    have apart : c ≠ close := by
      rintro rfl
      rcases closes with rfl | rfl <;> simp at other
    rw [text] at read ⊢
    rw [readGroup, Begins.skipBlank_eq (.of_head other)]
    simpa only [apart, if_false, List.length_cons] using read

end Groups

theorem renderItems_eq_map (items : List Json) : renderItems items = items.map render := by
  induction items with
  | nil => rfl
  | cons item rest ih => rw [renderItems, ih, List.map_cons]

def renderField (field : String × Json) : String :=
  Quoted.write field.1 ++ ":" ++ field.2.render

theorem renderFields_eq_map (fields : List (String × Json)) :
    renderFields fields = fields.map renderField := by
  induction fields with
  | nil => rfl
  | cons field rest ih =>
    obtain ⟨name, value⟩ := field
    rw [renderFields, ih, List.map_cons]
    rfl

theorem toList_renderField (field : String × Json) :
    (renderField field).toList =
      '"' :: (field.1.toList.flatMap Quoted.writeChar ++ '"' :: ':' :: field.2.render.toList) := by
  simp [renderField, Quoted.toList_write]

theorem Writable.begins {json : Json} (writable : Writable json) : Begins json.render.toList := by
  cases writable with
  | null => exact .of_head (by decide)
  | bool value => cases value <;> exact .of_head (by decide)
  | integer fits => exact .of_read? (Numeral.read?_wholeText fits)
  | double readsBack =>
    obtain ⟨text, written, read⟩ := readsBack
    rw [render, written, Option.getD_some]
    exact .of_read? read
  | string text =>
    rw [render, Quoted.toList_write]
    exact .of_head (by decide)
  | array each =>
    have text : ∀ inner : String,
        ("[" ++ inner ++ "]").toList = '[' :: (inner.toList ++ [']']) := by
      simp
    rw [render, text]
    exact .of_head (by decide)
  | object each =>
    have text : ∀ inner : String,
        ("\x7b" ++ inner ++ "\x7d").toList = '\x7b' :: (inner.toList ++ ['\x7d']) := by
      simp
    rw [render, text]
    exact .of_head (by decide)

theorem readValue_eq_readScalar {cs : List Char} (begins : Begins cs)
    (plain : ∀ tail, cs ≠ '[' :: tail ∧ cs ≠ '\x7b' :: tail) (limit : Nat) :
    readValue limit cs = readScalar cs := by
  cases limit with
  | zero => rw [readValue, begins.skipBlank_eq]
  | succ limit =>
    rw [readValue, begins.skipBlank_eq]
    split
    · next tail => exact absurd rfl (plain tail).1
    · next tail => exact absurd rfl (plain tail).2
    · rfl

theorem readScalar_number {cs : List Char} {value : Json}
    (read : Numeral.read? cs = some (value, [])) {rest : List Char} (follows : Follows rest)
    (limit : Nat) : readValue limit (cs ++ rest) = some (value, rest) := by
  have begins := (Begins.of_read? read).append rest
  have whole := Numeral.read?_leaves cs rest follows value [] read
  obtain ⟨c, tail, rfl, first⟩ := Numeral.exists_of_read? read
  have apart : ∀ d, d.isDigit = false → d ≠ '-' → c ≠ d := by
    rintro d letter minus rfl
    rcases first with rfl | digit
    · exact minus rfl
    · rw [letter] at digit
      contradiction
  rw [readValue_eq_readScalar begins fun _ =>
    ⟨by simp [apart '[' (by decide) (by decide)], by simp [apart '\x7b' (by decide) (by decide)]⟩]
  rw [List.cons_append] at whole ⊢
  unfold readScalar
  split
  case h_5 => exact whole
  all_goals
    next eq => exact absurd (List.cons.inj eq).1 (apart _ (by decide) (by decide))

theorem readField_renderField {value : Reader Json} {field : String × Json}
    (read : ReadsItem value render field.2) : ReadsItem (readField value) renderField field := by
  intro rest follows
  have blank : ∀ tail, skipBlank (':' :: tail) = ':' :: tail := fun _ => rfl
  rw [toList_renderField, List.cons_append, readField, Begins.skipBlank_eq (.of_head (by decide))]
  simp only [List.append_assoc, List.cons_append, Quoted.readBody?_write, Option.bind_eq_bind,
    Option.bind_some, blank, read rest follows, String.ofList_toList]
  rfl

theorem readValue_render {json : Json} (writable : Writable json) {limit : Nat}
    (nested : json.depth ≤ limit) :
    ReadsItem (readValue limit) render json := by
  -- the limit stays general: the values inside are read with one level less
  induction writable generalizing limit with
  | null =>
    intro rest _
    have text : (render .null).toList ++ rest = 'n' :: 'u' :: 'l' :: 'l' :: rest := rfl
    rw [text, readValue_eq_readScalar (.of_head (by decide)) (by simp)]
    rfl
  | bool value =>
    intro rest _
    cases value with
    | true =>
      have text : (render (.bool true)).toList ++ rest = 't' :: 'r' :: 'u' :: 'e' :: rest := rfl
      rw [text, readValue_eq_readScalar (.of_head (by decide)) (by simp)]
      rfl
    | false =>
      have text : (render (.bool false)).toList ++ rest =
          'f' :: 'a' :: 'l' :: 's' :: 'e' :: rest := rfl
      rw [text, readValue_eq_readScalar (.of_head (by decide)) (by simp)]
      rfl
  | integer fits =>
    exact fun rest follows => readScalar_number (Numeral.read?_wholeText fits) follows limit
  | double readsBack =>
    intro rest follows
    obtain ⟨text, written, read⟩ := readsBack
    rw [render, written, Option.getD_some]
    exact readScalar_number read follows limit
  | string text =>
    intro rest _
    rw [render, Quoted.toList_write, List.cons_append,
      readValue_eq_readScalar (.of_head (by decide)) (by simp), readScalar, List.append_assoc,
      List.singleton_append, Quoted.readBody?_write]
    simp only [Option.map_some, String.ofList_toList]
  | @array items each ih =>
    intro rest _
    obtain ⟨limit, rfl⟩ : ∃ inner, limit = inner + 1 :=
      Nat.exists_eq_succ_of_ne_zero (by rw [depth] at nested; omega)
    have inner : ∀ item ∈ items, ReadsItem (readValue limit) render item := by
      intro item member
      have bound := depth_lt_of_mem_items member
      exact ih item member (by omega)
    have read := readGroup_intercalate (.inl rfl) items inner
      (fun item member => (each item member).begins) rest
    have text : (render (.array items)).toList ++ rest =
        '[' :: ((",".intercalate (items.map render)).toList ++ ']' :: rest) := by
      simp [render, renderItems_eq_map]
    rw [text, readValue, Begins.skipBlank_eq (.of_head (by decide))]
    simp only [read, Option.map_some]
  | @object fields each ih =>
    intro rest _
    obtain ⟨limit, rfl⟩ : ∃ inner, limit = inner + 1 :=
      Nat.exists_eq_succ_of_ne_zero (by rw [depth] at nested; omega)
    have inner : ∀ field ∈ fields, ReadsItem (readField (readValue limit)) renderField field := by
      intro field member
      have bound := depth_lt_of_mem_fields member
      exact readField_renderField (ih field member (by omega))
    have begins : ∀ field ∈ fields, Begins (renderField field).toList := by
      intro field _
      rw [toList_renderField]
      exact .of_head (by decide)
    have read := readGroup_intercalate (.inr rfl) fields inner begins rest
    have text : (render (.object fields)).toList ++ rest =
        '\x7b' :: ((",".intercalate (fields.map renderField)).toList ++ '\x7d' :: rest) := by
      simp [render, renderFields_eq_map]
    rw [text, readValue, Begins.skipBlank_eq (.of_head (by decide))]
    simp only [read, Option.map_some]

theorem parse?_render {json : Json} (writable : Writable json) {limit : Nat}
    (nested : json.depth ≤ limit) : parse? limit json.render = some json := by
  have read := readValue_render writable nested [] trivial
  rw [List.append_nil] at read
  rw [parse?, read]
  rfl

end ApiClient.Json
