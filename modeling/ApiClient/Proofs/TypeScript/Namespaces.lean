import Mathlib.Data.List.Forall2
import ApiClient.Proofs.TypeScript.Optional

/-! Types written with their namespaces.

A generic type is recognised by the last segment of its name, so a namespace in front of the name
changes nothing. A task without a result is recognised by its whole name: with a namespace it stands
for itself, and the text of every type around it becomes another one. Texts of such types are told
apart from their end, where a simple name ends in a letter and a promise in a bracket.
-/

set_option autoImplicit false

namespace ApiClient.TypeScript

open ApiClient.Tree

def qualifiedName (space name : String) : String :=
  space ++ "." ++ name

theorem lastSegment_qualifiedName (space name : String) :
    lastSegment (qualifiedName space name) = lastSegment name := by
  have text : (qualifiedName space name).toList = space.toList ++ '.' :: name.toList := by
    simp [qualifiedName]
  unfold lastSegment
  rw [text, Text.split_append, List.getLast?_append_of_ne_nil _ (Text.split_ne_nil '.' name.toList)]

/-- Generic types that are written in a way of their own. -/
def IsTranslated (name : String) (arity : Nat) : Prop :=
  arity = 1 ∧ (lastSegment name = "Nullable" ∨ lastSegment name ∈ collectionNames ∨
    lastSegment name ∈ taskNames) ∨ arity = 2 ∧ lastSegment name ∈ dictionaryNames

def IsBareTask (name : String) (arity : Nat) : Prop :=
  arity = 0 ∧ name ∈ taskNames

def IsRecognised (name : String) (arity : Nat) : Prop :=
  IsTranslated name arity ∨ IsBareTask name arity

/-- The same types, some of them with namespaces: those that `known` says by name and arity. -/
inductive Qualified (known : String → Nat → Prop) : TypeRef → TypeRef → Prop where
  | same {name : String} {nullable : Bool} {args others : List TypeRef} :
    List.Forall₂ (Qualified known) args others →
    Qualified known ⟨name, nullable, args⟩ ⟨name, nullable, others⟩
  | moved {name : String} {nullable : Bool} {args others : List TypeRef} (space : String) :
    known name args.length → List.Forall₂ (Qualified known) args others →
    Qualified known ⟨name, nullable, args⟩ ⟨qualifiedName space name, nullable, others⟩

/-- Two texts of which one has a bracket where the other has a letter, counted from the end. -/
def Diverge (first second : String) : Prop :=
  ∃ front other back, first.toList = front ++ '>' :: back ∧ second.toList = other ++ 'k' :: back

namespace Diverge

variable {first second : String}

theorem ne (diverge : Diverge first second) : first ≠ second := by
  rintro rfl
  obtain ⟨front, other, back, bracket, letter⟩ := diverge
  have same : front ++ '>' :: back = other ++ 'k' :: back := bracket.symm.trans letter
  rw [List.append_cons, List.append_cons other] at same
  have cut := List.append_cancel_right same
  have last := congrArg List.getLast? cut
  simp at last

theorem around (diverge : Diverge first second) (front other back : String) :
    Diverge (front ++ first ++ back) (other ++ second ++ back) := by
  obtain ⟨before, after, rest, bracket, letter⟩ := diverge
  exact ⟨front.toList ++ before, other.toList ++ after, rest ++ back.toList, by simp [bracket],
    by simp [letter]⟩

theorem markNullable (diverge : Diverge first second) :
    Diverge (markNullable first) (markNullable second) := by
  obtain ⟨front, other, back, bracket, letter⟩ := diverge
  have ends : first.toList.getLast? = some nullableMark ↔
      second.toList.getLast? = some nullableMark := by
    rw [bracket, letter, List.getLast?_append_of_ne_nil _ (List.cons_ne_nil _ _),
      List.getLast?_append_of_ne_nil _ (List.cons_ne_nil _ _)]
    cases back with
    | nil => decide
    | cons c back => rw [List.getLast?_cons_cons, List.getLast?_cons_cons]
  by_cases marked : first.toList.getLast? = some nullableMark
  · rw [TypeScript.markNullable, if_pos marked, TypeScript.markNullable, if_pos (ends.1 marked)]
    exact ⟨front, other, back, bracket, letter⟩
  · rw [TypeScript.markNullable, if_neg marked, TypeScript.markNullable,
      if_neg (mt ends.2 marked)]
    exact ⟨front, other, back ++ [nullableMark], by simp [bracket], by simp [letter]⟩

end Diverge

section Generic

variable {texts others : List String}

theorem diverge_intercalate (separator : String)
    (each : List.Forall₂ (fun text other => text = other ∨ Diverge text other) texts others)
    (different : texts ≠ others) :
    Diverge (separator.intercalate texts) (separator.intercalate others) := by
  induction each with
  | nil => exact absurd rfl different
  | @cons text other rest others first later ih =>
    -- what follows the last difference is the same in both, so that difference is found first
    by_cases same : rest = others
    · subst same
      rcases first with rfl | diverge
      · exact absurd rfl different
      · cases rest with
        | nil => simpa using diverge
        | cons next rest =>
          have around := diverge.around "" "" (separator ++ separator.intercalate (next :: rest))
          simpa [String.intercalate_cons_cons, String.append_assoc] using around
    · cases later with
      | nil => exact absurd rfl same
      | @cons next after rest others related later =>
        have around := (ih same).around (text ++ separator) (other ++ separator) ""
        simpa [String.intercalate_cons_cons] using around

theorem diverge_genericName (name : String)
    (each : List.Forall₂ (fun text other => text = other ∨ Diverge text other) texts others)
    (different : texts ≠ others) : Diverge (genericName name texts) (genericName name others) := by
  have angled : Diverge (angled (simpleName name) texts) (angled (simpleName name) others) :=
    (diverge_intercalate ", " each different).around _ _ ">"
  have pair := diverge_intercalate "]: " each different
  -- one or two arguments may be written in a form of their own, around them as in any list
  cases each with
  | nil => exact absurd rfl different
  | @cons text other rest others first later =>
    cases later with
    | nil =>
      have diverge : Diverge text other := first.resolve_left (by simpa using different)
      dsimp only [genericName]
      split_ifs
      · exact diverge.markNullable
      · exact diverge.around "Array<" "Array<" ">"
      · exact diverge.around "Promise<" "Promise<" ">"
      · exact angled
    | @cons value after rest others second later =>
      cases later with
      | nil =>
        dsimp only [genericName]
        split_ifs
        · have braced := pair.around "\x7b[id: " "\x7b[id: " "\x7d"
          simpa [String.append_assoc] using braced
        · exact angled
      | cons third later => exact angled

theorem genericName_qualifiedName (space : String) {name : String}
    (translated : IsTranslated name texts.length) :
    genericName (qualifiedName space name) texts = genericName name texts := by
  have segment := lastSegment_qualifiedName space name
  rcases translated with ⟨one, known⟩ | ⟨two, known⟩
  · obtain ⟨text, rfl⟩ := List.length_eq_one_iff.1 one
    dsimp only [genericName]
    rw [segment]
    rcases known with wrapper | collection | task
    · rw [if_pos wrapper, if_pos wrapper]
    · split_ifs
      · rfl
      · rfl
    · split_ifs
      · rfl
      · rfl
      · rfl
  · obtain ⟨key, value, rfl⟩ := List.length_eq_two.1 two
    dsimp only [genericName]
    rw [segment, if_pos known, if_pos known]

end Generic

section Types

variable {type other : TypeRef} {args others : List TypeRef}

theorem typeText_plain (name : String) (args : List TypeRef) :
    spelling.type ⟨name, false, args⟩ = genericName name (spelling.types args) := by
  cases args <;> rfl

theorem typeText_eq_ite (name : String) (nullable : Bool) (args : List TypeRef) :
    spelling.type ⟨name, nullable, args⟩ =
      if nullable then markNullable (genericName name (spelling.types args))
      else genericName name (spelling.types args) := by
  cases nullable with
  | false => exact typeText_plain name args
  | true => exact congrArg markNullable (typeText_plain name args)

theorem length_types (types : List TypeRef) : (spelling.types types).length = types.length := by
  rw [Spelling.types_eq_map, List.length_map]

theorem types_eq_of_forall₂
    (each : List.Forall₂ (fun arg other => spelling.type other = spelling.type arg) args others) :
    spelling.types others = spelling.types args := by
  induction each with
  | nil => rfl
  | cons first later ih => rw [Spelling.types, first, ih, Spelling.types]

theorem typeText_of_qualified (qualified : Qualified IsTranslated type other) :
    spelling.type other = spelling.type type := by
  induction type generalizing other with
  | named name nullable args ih =>
    have texts {others : List TypeRef} (each : List.Forall₂ (Qualified IsTranslated) args others) :
        spelling.types others = spelling.types args := by
      apply types_eq_of_forall₂
      exact ((List.forall₂_and_left _ _).2 ⟨ih, each⟩).imp fun _ _ both => both.1 both.2
    cases qualified with
    | same each => rw [typeText_eq_ite, typeText_eq_ite, texts each]
    | moved space known each =>
      rw [← length_types] at known
      rw [typeText_eq_ite, typeText_eq_ite, texts each, genericName_qualifiedName space known]

theorem forall₂_eq_or_diverge
    (each : List.Forall₂ (fun arg other => Qualified IsTranslated arg other ∨
      Diverge (spelling.type arg) (spelling.type other)) args others) :
    List.Forall₂ (fun text other => text = other ∨ Diverge text other)
      (spelling.types args) (spelling.types others) := by
  rw [Spelling.types_eq_map, Spelling.types_eq_map, List.forall₂_map_left_iff,
    List.forall₂_map_right_iff]
  refine each.imp fun arg other => Or.imp_left fun qualified => ?_
  exact (typeText_of_qualified qualified).symm

theorem forall₂_qualified_of_types_eq
    (each : List.Forall₂ (fun arg other => Qualified IsTranslated arg other ∨
      Diverge (spelling.type arg) (spelling.type other)) args others)
    (same : spelling.types args = spelling.types others) :
    List.Forall₂ (Qualified IsTranslated) args others := by
  induction each with
  | nil => exact .nil
  | cons first later ih =>
    rw [Spelling.types, Spelling.types, List.cons.injEq] at same
    exact .cons (first.resolve_right fun diverge => diverge.ne same.1) (ih same.2)

theorem getLast?_qualifiedTask (space : String) {name : String} (task : name ∈ taskNames) :
    (qualifiedName space name).toList.getLast? = some 'k' := by
  have ends : ∀ name ∈ taskNames, name.toList.getLast? = some 'k' := by decide
  exact getLast?_append (ends name task)

theorem genericName_bareTask {name : String} (task : name ∈ taskNames) :
    genericName name [] = "Promise<void>" := by
  have texts : ∀ name ∈ taskNames, genericName name [] = "Promise<void>" := by decide
  exact texts name task

theorem genericName_qualifiedTask (space : String) {name : String} (task : name ∈ taskNames) :
    genericName (qualifiedName space name) [] = qualifiedName space name := by
  have dotless : ∀ name ∈ taskNames, '.' ∉ name.toList := by decide
  have others : ∀ names ∈ [stringNames, numberNames, booleanNames, dateNames, anyNames, voidNames],
      ∀ name ∈ names, name.toList.getLast? ≠ some 'k' := by decide
  have last := getLast?_qualifiedTask space task
  have unknown (names : List String) (listed : names ∈ [stringNames, numberNames, booleanNames,
      dateNames, anyNames, voidNames]) : qualifiedName space name ∉ names :=
    fun member => others names listed _ member last
  have untasked : qualifiedName space name ∉ taskNames :=
    fun member => dotless _ member (by simp [qualifiedName])
  change simpleName (qualifiedName space name) = qualifiedName space name
  unfold simpleName
  rw [if_neg (unknown stringNames (by simp)), if_neg (unknown numberNames (by simp)),
    if_neg (unknown booleanNames (by simp)), if_neg (unknown dateNames (by simp)),
    if_neg (unknown anyNames (by simp)), if_neg (unknown voidNames (by simp)), if_neg untasked]

theorem diverge_bareTask (space : String) {name : String} (task : name ∈ taskNames) :
    Diverge (genericName name []) (genericName (qualifiedName space name) []) := by
  rw [genericName_bareTask task, genericName_qualifiedTask space task]
  obtain ⟨front, text⟩ := List.getLast?_eq_some_iff.1 (getLast?_qualifiedTask space task)
  exact ⟨"Promise<void".toList, front, [], rfl, text⟩

/-- Types with namespaces keep their texts as long as no task without a result gets one. -/
theorem qualified_or_diverge
    (qualified : Qualified IsRecognised type other) :
    Qualified IsTranslated type other ∨ Diverge (spelling.type type) (spelling.type other) := by
  induction type generalizing other with
  | named name nullable args ih =>
    have related {others : List TypeRef} (each : List.Forall₂ (Qualified _) args others) :=
      ((List.forall₂_and_left _ _).2 ⟨ih, each⟩).imp fun _ _ both => both.1 both.2
    have flagged {first second : String} (diverge : Diverge first second) :
        Diverge (if nullable then markNullable first else first)
          (if nullable then markNullable second else second) := by
      cases nullable with
      | false => exact diverge
      | true => exact diverge.markNullable
    cases qualified with
    | @same _ _ _ others each =>
      -- with equal texts every argument is qualified as claimed; otherwise they diverge here too
      by_cases texts : spelling.types args = spelling.types others
      · exact .inl (.same (forall₂_qualified_of_types_eq (related each) texts))
      · right
        rw [typeText_eq_ite, typeText_eq_ite]
        exact flagged (diverge_genericName name (forall₂_eq_or_diverge (related each)) texts)
    | @moved _ _ _ others space known each =>
      rcases known with translated | ⟨none, task⟩
      · by_cases texts : spelling.types args = spelling.types others
        · exact .inl (.moved space translated (forall₂_qualified_of_types_eq (related each) texts))
        · right
          have length : args.length = (spelling.types others).length :=
            each.length_eq.trans (length_types others).symm
          rw [typeText_eq_ite, typeText_eq_ite,
            genericName_qualifiedName space (length ▸ translated)]
          exact flagged (diverge_genericName name (forall₂_eq_or_diverge (related each)) texts)
      · right
        obtain rfl := List.length_eq_zero_iff.1 none
        cases each
        rw [typeText_eq_ite, typeText_eq_ite]
        exact flagged (diverge_bareTask space task)

end Types

section Derivation

theorem isDerivable_of_getLast? {name : String} {args : List TypeRef} {c : Char}
    (last : (genericName name (spelling.types args)).toList.getLast? = some c)
    (ending : c ∈ ['>', '\x7d', 'k']) : isDerivable ⟨name, false, args⟩ = true := by
  have unmarked : ∀ c ∈ ['>', '\x7d', 'k'], c ≠ nullableMark := by simp [nullableMark]
  have others : ∀ text ∈ builtInTypes, text.toList.getLast?.all (· ∉ ['>', '\x7d', 'k']) := by
    decide
  have plain : (genericName name (spelling.types args)).toList.getLast? ≠ some nullableMark := by
    rw [last]
    exact fun marked => unmarked c ending (Option.some.inj marked)
  have unlisted : genericName name (spelling.types args) ∉ builtInTypes := by
    intro member
    have apart := others _ member
    rw [last, Option.all_some] at apart
    exact of_decide_eq_true apart ending
  rw [isDerivable, if_neg Bool.false_ne_true, typeText_plain, splitNullable_of_getLast? plain]
  simpa using unlisted

theorem isDerivable_generic (name : String) (arg : TypeRef) (args : List TypeRef) :
    isDerivable ⟨name, false, arg :: args⟩ = !isWrapper name (arg :: args).length := by
  have length : (spelling.types (arg :: args)).length = (arg :: args).length := length_types _
  cases wrapper : isWrapper name (arg :: args).length with
  | false =>
    have closed : ∃ c ∈ closers,
        (genericName name (spelling.types (arg :: args))).toList.getLast? = some c := by
      rw [Spelling.types] at length ⊢
      exact getLast?_genericName (by rw [length, wrapper])
    obtain ⟨c, closer, last⟩ := closed
    have ending : ∀ c ∈ closers, c ∈ ['>', '\x7d', 'k'] := by simp [closers]
    exact isDerivable_of_getLast? last (ending c closer)
  | true =>
    obtain ⟨only, same, generic, -⟩ := exists_of_isWrapper false wrapper
    rw [same, isDerivable, if_neg Bool.false_ne_true, typeText_plain]
    have text : genericName name (spelling.types [only]) = markNullable (spelling.type only) :=
      if_pos generic
    rw [text, splitNullable_markNullable]
    rfl

theorem isDerivable_nullable (name : String) (args : List TypeRef) :
    isDerivable ⟨name, true, args⟩ = false := rfl

theorem isWrapper_qualifiedName (space name : String) (arity : Nat) :
    isWrapper (qualifiedName space name) arity = isWrapper name arity := by
  rw [isWrapper, isWrapper, lastSegment_qualifiedName]

theorem isDerivable_of_qualified {type other : TypeRef}
    (qualified : Qualified IsRecognised type other) : isDerivable other = isDerivable type := by
  cases qualified with
  | @same name nullable args others each =>
    cases nullable with
    | true => rw [isDerivable_nullable, isDerivable_nullable]
    | false =>
      cases each with
      | nil => rfl
      | cons first later =>
        rw [isDerivable_generic, isDerivable_generic, List.length_cons, List.length_cons,
          later.length_eq]
  | @moved name nullable args others space known each =>
    cases nullable with
    | true => rw [isDerivable_nullable, isDerivable_nullable]
    | false =>
      cases each with
      | nil =>
        have task : name ∈ taskNames := by
          rcases known with (⟨arity, -⟩ | ⟨arity, -⟩) | ⟨-, task⟩
          · cases arity
          · cases arity
          · exact task
        have promise : (genericName name (spelling.types [])).toList.getLast? = some '>' := by
          rw [Spelling.types, genericName_bareTask task]
          decide
        have letter : (genericName (qualifiedName space name) (spelling.types [])).toList.getLast? =
            some 'k' := by
          rw [Spelling.types, genericName_qualifiedTask space task]
          exact getLast?_qualifiedTask space task
        rw [isDerivable_of_getLast? promise (by decide), isDerivable_of_getLast? letter (by decide)]
      | cons first later =>
        rw [isDerivable_generic, isDerivable_generic, isWrapper_qualifiedName, List.length_cons,
          List.length_cons, later.length_eq]

end Derivation

/-- Namespaces in front of recognised types never change what a class can extend. They change no
text either, exactly as long as no task without a result is among the types that get one. -/
theorem typeText_qualified_iff {type other : TypeRef}
    (qualified : Qualified IsRecognised type other) :
    (typeMapper.type other = typeMapper.type type ↔ Qualified IsTranslated type other) ∧
      typeMapper.derivable other = typeMapper.derivable type := by
  change (spelling.type other = spelling.type type ↔ _) ∧ isDerivable other = isDerivable type
  refine ⟨⟨fun same => ?_, typeText_of_qualified⟩, isDerivable_of_qualified qualified⟩
  exact (qualified_or_diverge qualified).resolve_right fun diverge => diverge.ne same.symm

def nestedType : TypeRef :=
  ⟨"Task", false, [⟨"Dictionary", true, [.string, ⟨"Nullable", false, [.int]⟩]⟩]⟩

def namespacedType : TypeRef :=
  ⟨qualifiedName "System.Threading.Tasks" "Task", false,
    [⟨qualifiedName "System.Collections.Generic" "Dictionary", true,
      [.string, ⟨qualifiedName "System" "Nullable", false, [.int]⟩]⟩]⟩

theorem typeText_qualified_iff_nested :
    typeMapper.type namespacedType = typeMapper.type nestedType ∧
      typeMapper.derivable namespacedType = typeMapper.derivable nestedType := by
  have wrapper : IsTranslated "Nullable" 1 := .inl ⟨rfl, by decide⟩
  have dictionary : IsTranslated "Dictionary" 2 := .inr ⟨rfl, by decide⟩
  have task : IsTranslated "Task" 1 := .inl ⟨rfl, by decide⟩
  have moved (known : String → Nat → Prop)
      (covers : ∀ name arity, IsTranslated name arity → known name arity) :
      Qualified known nestedType namespacedType := by
    apply Qualified.moved _ (covers _ _ task)
    refine .cons ?_ .nil
    apply Qualified.moved _ (covers _ _ dictionary)
    refine .cons (.same .nil) (.cons ?_ .nil)
    exact Qualified.moved _ (covers _ _ wrapper) (.cons (.same .nil) .nil)
  have both := typeText_qualified_iff (moved IsRecognised fun _ _ => .inl)
  exact ⟨both.1.2 (moved IsTranslated fun _ _ => id), both.2⟩

theorem typeText_qualifiedTask :
    Qualified IsRecognised ⟨"Task", false, []⟩ ⟨"System.Threading.Tasks.Task", false, []⟩ ∧
      typeMapper.type ⟨"Task", false, []⟩ = "Promise<void>" ∧
      typeMapper.type ⟨"System.Threading.Tasks.Task", false, []⟩ =
        "System.Threading.Tasks.Task" := by
  refine ⟨?_, by decide, by decide⟩
  exact .moved "System.Threading.Tasks" (.inr ⟨rfl, by decide⟩) .nil

end ApiClient.TypeScript
