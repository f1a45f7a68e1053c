import Mathlib.Logic.Relation
import ApiClient.Proofs.TypeScript.Nullable

/-! Optional types and their cores.

A type sheds its flag, or a wrapper around its argument. In whatever order it sheds them it ends at
its core, which has nothing to shed. The text of a type is that of its core, with one mark behind it
when there was something to shed and with none otherwise. Fields show the mark behind their name,
and no class extends a type that has one.
-/

set_option autoImplicit false

namespace ApiClient.TypeScript

open ApiClient.Layout ApiClient.Tree

/-- A type without one of the reasons for the mark at the end of its text. -/
inductive Sheds : TypeRef → TypeRef → Prop where
  | flag (name : String) (args : List TypeRef) : Sheds ⟨name, true, args⟩ ⟨name, false, args⟩
  | wrapper (name : String) (nullable : Bool) (arg : TypeRef) :
    lastSegment name = "Nullable" → Sheds ⟨name, nullable, [arg]⟩ arg

section Shedding

variable {type other : TypeRef}

theorem isOptional_eq_true_iff : type.isOptional = true ↔ ∃ next, Sheds type next := by
  constructor
  · intro optional
    obtain ⟨name, nullable, args⟩ := type
    cases nullable with
    | true => exact ⟨_, .flag name args⟩
    | false =>
      have wrapper : isWrapper name args.length = true := optional
      obtain ⟨arg, rfl, generic, -⟩ := exists_of_isWrapper false wrapper
      exact ⟨arg, .wrapper name false arg generic⟩
  · rintro ⟨next, flag | ⟨name, nullable, arg, generic⟩⟩
    · rfl
    · simp [isOptional_mk, isWrapper, generic]

theorem Sheds.bare_eq (sheds : Sheds type other) : type.bare = other.bare := by
  cases sheds with
  | flag name args =>
    cases wrapper : isWrapper name args.length with
    | false => rw [bare_of_not_isWrapper wrapper, bare_of_not_isWrapper wrapper]
    | true =>
      obtain ⟨arg, rfl, -, -⟩ := exists_of_isWrapper true wrapper
      rfl
  | wrapper name nullable arg generic =>
    have wrapper : isWrapper name 1 = true := by simpa [isWrapper] using generic
    exact if_pos wrapper

theorem bare_of_not_isOptional (plain : type.isOptional = false) : type.bare = type := by
  obtain ⟨name, nullable, args⟩ := type
  obtain ⟨rfl, other⟩ := Bool.or_eq_false_iff.1 plain
  exact bare_of_not_isWrapper other

theorem sheds_bare (type : TypeRef) :
    Relation.ReflTransGen Sheds type type.bare ∧ type.bare.isOptional = false := by
  induction type with
  | named name nullable args ih =>
    cases wrapper : isWrapper name args.length with
    | false =>
      rw [bare_of_not_isWrapper wrapper, isOptional_mk, wrapper]
      cases nullable with
      | false => exact ⟨.refl, rfl⟩
      | true => exact ⟨.single (.flag name args), rfl⟩
    | true =>
      obtain ⟨arg, rfl, generic, bare⟩ := exists_of_isWrapper nullable wrapper
      rw [bare]
      obtain ⟨steps, plain⟩ := ih arg (List.mem_singleton_self arg)
      exact ⟨.head (.wrapper name nullable arg generic) steps, plain⟩

theorem eq_bare_iff (core : TypeRef) :
    Relation.ReflTransGen Sheds type core ∧ (∀ next, ¬Sheds core next) ↔ core = type.bare := by
  rw [← not_exists, ← isOptional_eq_true_iff, Bool.not_eq_true]
  constructor
  · rintro ⟨steps, plain⟩
    induction steps using Relation.ReflTransGen.head_induction_on with
    | refl => exact (bare_of_not_isOptional plain).symm
    | head step _ ih => rw [step.bare_eq, ih]
  · rintro rfl
    exact sheds_bare type

end Shedding

section Text

variable {type : TypeRef} {text : String}

theorem not_mem_builtInTypes_of_getLast? {c : Char} (closer : c ∈ closers)
    (last : text.toList.getLast? = some c) : text ∉ builtInTypes := by
  have others : ∀ text ∈ builtInTypes, text.toList.getLast? ∉ closers.map some := by decide
  intro member
  have closed : text.toList.getLast? ∈ closers.map some := last ▸ List.mem_map_of_mem closer
  exact others text member closed

theorem isDerivable_eq_true_iff (unmarked : ∀ name ∈ type.names, Unmarked name) :
    isDerivable type = true ↔ type.isOptional = false ∧
      ¬(type.args = [] ∧ simpleName type.name ∈ builtInTypes) := by
  obtain ⟨name, nullable, args⟩ := type
  have split : splitNullable (spelling.type ⟨name, nullable, args⟩) = _ :=
    splitNullable_typeText ⟨name, nullable, args⟩ unmarked
  have derivable : isDerivable ⟨name, nullable, args⟩ = true ↔
      TypeRef.isOptional ⟨name, nullable, args⟩ = false ∧
        typeMapper.type (TypeRef.bare ⟨name, nullable, args⟩) ∉ builtInTypes := by
    unfold isDerivable
    rw [split]
    cases nullable <;> simp [isOptional_mk]
  rw [derivable]
  refine and_congr_right fun plain => ?_
  obtain ⟨rfl, other⟩ := Bool.or_eq_false_iff.1 plain
  rw [bare_of_not_isWrapper other]
  change spelling.type ⟨name, false, args⟩ ∉ builtInTypes ↔ _
  rcases spelling_plain other with ⟨rfl, simple⟩ | ⟨full, c, closer, last⟩
  · simp [simple]
  · simp [full, not_mem_builtInTypes_of_getLast? closer last]

end Text

/-- The line of a field or a property with some sign between its name and its type. -/
def fieldLine (options : Options) (name sign text : String) : String :=
  options.margin ++ (name ++ sign ++ text) ++ ";\n"

theorem fieldLine_inj {options : Options} {name sign other text : String} :
    fieldLine options name sign text = fieldLine options name other text ↔ sign = other := by
  simp only [fieldLine, String.append_left_inj, String.append_right_inj]

theorem memberText_field (options : Options) (name : String) {type : TypeRef}
    (unmarked : ∀ name ∈ type.names, Unmarked name) (init : Option Expression) (member : Member)
    (kind : member ∈ [.field name type init, .property name type]) :
    memberText typeMapper options member = .ok (fieldLine options name
      (if type.isOptional then "?: " else ": ") (typeMapper.type type.bare)) := by
  have line : memberText typeMapper options member =
      .ok (options.margin ++ nameAndType typeMapper name type ++ ";\n") := by
    simp only [List.mem_cons, List.not_mem_nil, or_false] at kind
    rcases kind with rfl | rfl <;> rfl
  rw [line, nameAndType, splitNullable_typeText type unmarked, fieldLine]

/-- Types have a normal form, their core: it decides the text of a type, the line of a field, and
whether a class can extend the type. -/
theorem typeText_normalForm (type : TypeRef) (unmarked : ∀ name ∈ type.names, Unmarked name) :
    (∀ core, Relation.ReflTransGen Sheds type core ∧ (∀ next, ¬Sheds core next) ↔
      core = type.bare) ∧
    splitNullable (typeMapper.type type) = (typeMapper.type type.bare, type.isOptional) ∧
    (typeMapper.type type.bare).toList.getLast? ≠ some nullableMark ∧
    typeMapper.type type = markedIf type.isOptional (typeMapper.type type.bare) ∧
    (∀ options name init, ∀ member ∈ [Member.field name type init, .property name type],
      (memberText typeMapper options member =
        .ok (fieldLine options name "?: " (typeMapper.type type.bare)) ↔
          type.isOptional = true) ∧
      (memberText typeMapper options member =
        .ok (fieldLine options name ": " (typeMapper.type type.bare)) ↔
          type.isOptional = false)) ∧
    (typeMapper.derivable type = true ↔ type.isOptional = false ∧ ¬(type.args = [] ∧
      simpleName type.name ∈ ["string", "number", "boolean", "any", "void", "Date"])) := by
  obtain ⟨last, marked⟩ := typeText_eq_markedIf type unmarked
  refine ⟨eq_bare_iff, splitNullable_typeText type unmarked, last, marked, ?_,
    isDerivable_eq_true_iff unmarked⟩
  intro options name init member kind
  rw [memberText_field options name unmarked init member kind]
  simp only [Except.ok.injEq, fieldLine_inj]
  cases type.isOptional <;> decide

def stackedType : TypeRef :=
  ⟨"System.Nullable", true, [⟨"Nullable", false, [⟨"List", true, [TypeRef.int.orNull]⟩]⟩]⟩

theorem typeText_normalForm_stacked :
    splitNullable (typeMapper.type stackedType) = ("Array<number?>", true) ∧
      typeMapper.type stackedType = "Array<number?>?" ∧
      typeMapper.derivable stackedType = false := by
  have names : ∀ name ∈ stackedType.names, Unmarked name := by decide
  have core : typeMapper.type stackedType.bare = "Array<number?>" := by decide
  have optional : stackedType.isOptional = true := by decide
  obtain ⟨-, split, -, marked, -, derivable⟩ := typeText_normalForm stackedType names
  rw [core, optional] at split marked
  refine ⟨split, marked, Bool.eq_false_iff.2 fun extends_ => ?_⟩
  cases (derivable.1 extends_).1.symm.trans optional

end ApiClient.TypeScript
