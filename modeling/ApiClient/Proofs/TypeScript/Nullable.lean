import Mathlib.Data.List.DropRight
import ApiClient.Proofs.Tree.Induction
import ApiClient.Proofs.Tree.Words
import ApiClient.Proofs.TypeScript.Copied
import ApiClient.TypeScript.Declaration
import ApiClient.TypeScript.TypeNames

/-! Where the marks of nullable types are left in signatures.

A type is marked when it is nullable itself, stands for a nullable type, or has a marked argument.
A mark at the end of a text can be taken off; the others are in the middle of the text. Fields take
the mark at the end off, the clause of a return type is free of marks, and parameters keep all of
theirs.
-/

set_option autoImplicit false

namespace ApiClient.TypeScript

open ApiClient.Tree ApiClient.Text

def isWrapper (name : String) (arity : Nat) : Bool :=
  lastSegment name == "Nullable" && arity == 1

end ApiClient.TypeScript

namespace ApiClient.Tree

open ApiClient.TypeScript

namespace TypeRef

/-- Whether the text of a type ends in a mark. -/
def isOptional : TypeRef → Bool
  | ⟨name, nullable, args⟩ => nullable || isWrapper name args.length

mutual

/-- Whether there is a mark anywhere in the text of a type. -/
def isMarked : TypeRef → Bool
  | ⟨name, nullable, args⟩ => nullable || isWrapper name args.length || anyMarked args

def anyMarked : List TypeRef → Bool
  | [] => false
  | type :: rest => type.isMarked || anyMarked rest

end

/-- The type without the mark at the end of its text. -/
def bare : TypeRef → TypeRef
  | ⟨name, _, [arg]⟩ => if isWrapper name 1 then arg.bare else ⟨name, false, [arg]⟩
  | ⟨name, _, args⟩ => ⟨name, false, args⟩

end TypeRef

end ApiClient.Tree

namespace ApiClient.TypeScript

open ApiClient.Layout ApiClient.Tree

def Unmarked (text : String) : Prop :=
  nullableMark ∉ text.toList

instance (text : String) : Decidable (Unmarked text) :=
  inferInstanceAs (Decidable (nullableMark ∉ text.toList))

section Texts

variable {text : String}

theorem unmarked_append {front back : String} :
    Unmarked (front ++ back) ↔ Unmarked front ∧ Unmarked back := by
  simp [Unmarked]

theorem unmarked_intercalate {separator : String} (between : Unmarked separator)
    {texts : List String} :
    Unmarked (separator.intercalate texts) ↔ ∀ text ∈ texts, Unmarked text := by
  induction texts with
  | nil => simp [Unmarked]
  | cons text rest ih =>
    cases rest with
    | nil => simp
    | cons next rest =>
      rw [String.intercalate_cons_cons, unmarked_append, unmarked_append, ih, List.forall_mem_cons]
      simp [between]

theorem not_unmarked_markNullable : ¬Unmarked (markNullable text) := by
  intro unmarked
  unfold markNullable at unmarked
  split at unmarked
  · next last => exact unmarked (List.mem_of_getLast? last)
  · exact unmarked (by simp)

theorem getLast?_markNullable : (markNullable text).toList.getLast? = some nullableMark := by
  unfold markNullable
  split
  · assumption
  · simp

theorem toList_splitNullable :
    (splitNullable text).1.toList = text.toList.rdropWhile (· == nullableMark) :=
  String.toList_ofList

theorem splitNullable_snd_eq_true_iff :
    (splitNullable text).2 = true ↔ text.toList.getLast? = some nullableMark := by
  have whole : (splitNullable text).1 = text ↔ text.toList.getLast? ≠ some nullableMark := by
    rw [← String.toList_inj, toList_splitNullable, List.rdropWhile_eq_self_iff]
    cases text.toList using List.reverseRecOn <;> simp
  change ((splitNullable text).1 != text) = true ↔ _
  rw [bne_iff_ne, ne_eq, whole, not_not]

theorem splitNullable_markNullable :
    splitNullable (markNullable text) = ((splitNullable text).1, true) := by
  refine Prod.ext ?_ (splitNullable_snd_eq_true_iff.2 getLast?_markNullable)
  unfold markNullable
  split
  · rfl
  · rw [← String.toList_inj, toList_splitNullable, toList_splitNullable, String.toList_push,
      List.rdropWhile_concat_pos _ _ _ (by decide)]

theorem splitNullable_of_getLast? (other : text.toList.getLast? ≠ some nullableMark) :
    splitNullable text = (text, false) := by
  refine Prod.ext ?_ (Bool.eq_false_iff.2 (mt splitNullable_snd_eq_true_iff.1 other))
  have kept : (splitNullable text).2 = false :=
    Bool.eq_false_iff.2 (mt splitNullable_snd_eq_true_iff.1 other)
  exact bne_eq_false_iff_eq.1 kept

theorem markNullable_of_getLast? (other : text.toList.getLast? ≠ some nullableMark) :
    markNullable text = text.push nullableMark :=
  if_neg other

theorem markNullable_push : markNullable (text.push nullableMark) = text.push nullableMark :=
  if_pos (by simp)

def markedIf (optional : Bool) (text : String) : String :=
  if optional then text.push nullableMark else text

theorem markNullable_markedIf (other : text.toList.getLast? ≠ some nullableMark)
    (optional : Bool) : markNullable (markedIf optional text) = markedIf true text := by
  cases optional with
  | false => exact markNullable_of_getLast? other
  | true => exact markNullable_push

theorem splitNullable_markedIf (other : text.toList.getLast? ≠ some nullableMark)
    (optional : Bool) : splitNullable (markedIf optional text) = (text, optional) := by
  cases optional with
  | false => exact splitNullable_of_getLast? other
  | true =>
    have marked : markedIf true text = markNullable text := (markNullable_of_getLast? other).symm
    rw [marked, splitNullable_markNullable, splitNullable_of_getLast? other]

end Texts

theorem simpleName_unmarked {name : String} (unmarked : Unmarked name) :
    Unmarked (simpleName name) := by
  unfold simpleName
  split_ifs
  case neg => exact unmarked
  all_goals decide

theorem angled_unmarked {name : String} (unmarked : Unmarked name) {args : List String} :
    Unmarked (angled name args) ↔ ∀ arg ∈ args, Unmarked arg := by
  have opening : Unmarked "<" := by decide
  have closing : Unmarked ">" := by decide
  rw [angled, unmarked_append, unmarked_append, unmarked_append,
    unmarked_intercalate (by decide)]
  simp [unmarked, opening, closing]

theorem genericName_unmarked {name : String} (unmarked : Unmarked name) {args : List String} :
    Unmarked (genericName name args) ↔
      isWrapper name args.length = false ∧ ∀ arg ∈ args, Unmarked arg := by
  have own := simpleName_unmarked unmarked
  have closing : Unmarked ">" := by decide
  have array : Unmarked "Array<" := by decide
  have promise : Unmarked "Promise<" := by decide
  have opening : Unmarked "\x7b[id: " := by decide
  have between : Unmarked "]: " := by decide
  have brace : Unmarked "\x7d" := by decide
  rcases args with _ | ⟨arg, _ | ⟨value, _ | ⟨third, rest⟩⟩⟩
  · simp [genericName, own, isWrapper]
  · dsimp only [genericName]
    split_ifs with wrapper
    · simp [not_unmarked_markNullable, isWrapper, wrapper]
    · simp [unmarked_append, array, closing, isWrapper, wrapper]
    · simp [unmarked_append, promise, closing, isWrapper, wrapper]
    · simp [angled_unmarked own, isWrapper, wrapper]
  · dsimp only [genericName]
    split_ifs
    · simp [unmarked_append, opening, between, brace, isWrapper]
    · simp [angled_unmarked own, isWrapper]
  · simp [genericName, angled_unmarked own, isWrapper]

theorem spelling_simple (name : String) : spelling.type ⟨name, false, []⟩ = simpleName name := rfl

theorem spelling_generic (name : String) (arg : TypeRef) (args : List TypeRef) :
    spelling.type ⟨name, false, arg :: args⟩ = genericName name (spelling.types (arg :: args)) :=
  rfl

theorem spelling_nullable (name : String) (args : List TypeRef) :
    spelling.type ⟨name, true, args⟩ = markNullable (spelling.type ⟨name, false, args⟩) := rfl

theorem anyMarked_eq_false_iff {types : List TypeRef} :
    TypeRef.anyMarked types = false ↔ ∀ type ∈ types, type.isMarked = false := by
  induction types with
  | nil => simp [TypeRef.anyMarked]
  | cons type rest ih => simp [TypeRef.anyMarked, ih]

theorem typeText_unmarked_iff (type : TypeRef) (unmarked : ∀ name ∈ type.names, Unmarked name) :
    Unmarked (typeMapper.type type) ↔ type.isMarked = false := by
  -- the mapper writes types as its spelling does
  change Unmarked (spelling.type type) ↔ _
  induction type with
  | named name nullable args ih =>
    obtain ⟨own, inner⟩ := List.forall_mem_cons.1 unmarked
    have each : (∀ arg ∈ spelling.types args, Unmarked arg) ↔ TypeRef.anyMarked args = false := by
      rw [Spelling.types_eq_map, List.forall_mem_map, anyMarked_eq_false_iff]
      exact forall₂_congr fun type member =>
        ih type member (forall_mem_namesOfTypes.1 inner type member)
    cases nullable with
    | true =>
      rw [spelling_nullable]
      simp [TypeRef.isMarked, not_unmarked_markNullable]
    | false =>
      cases args with
      | nil =>
        rw [spelling_simple]
        simp [TypeRef.isMarked, TypeRef.anyMarked, isWrapper, simpleName_unmarked own]
      | cons arg args =>
        have length : (spelling.types (arg :: args)).length = (arg :: args).length := by
          rw [Spelling.types_eq_map, List.length_map]
        rw [spelling_generic, genericName_unmarked own, each, length]
        simp [TypeRef.isMarked]

theorem Unmarked.getLast? {text : String} (unmarked : Unmarked text) :
    text.toList.getLast? ≠ some nullableMark :=
  fun last => unmarked (List.mem_of_getLast? last)

theorem getLast?_append {front back : String} {c : Char} (last : back.toList.getLast? = some c) :
    (front ++ back).toList.getLast? = some c := by
  rw [String.toList_append, List.getLast?_append, last]
  rfl

def closers : List Char := ['>', '\x7d']

theorem getLast?_genericName {name arg : String} {args : List String}
    (other : isWrapper name (arg :: args).length = false) :
    ∃ c ∈ closers, (genericName name (arg :: args)).toList.getLast? = some c := by
  have bracket (front : String) : ∃ c ∈ closers, (front ++ ">").toList.getLast? = some c :=
    ⟨'>', by decide, getLast?_append (by decide)⟩
  have brace (front : String) : ∃ c ∈ closers, (front ++ "\x7d").toList.getLast? = some c :=
    ⟨'\x7d', by decide, getLast?_append (by decide)⟩
  rcases args with _ | ⟨value, _ | ⟨third, rest⟩⟩
  · have wrapper : lastSegment name ≠ "Nullable" := by simpa [isWrapper] using other
    dsimp only [genericName]
    rw [if_neg wrapper]
    split_ifs
    · exact bracket _
    · exact bracket _
    · exact bracket _
  · dsimp only [genericName]
    split_ifs
    · exact brace _
    · exact bracket _
  · exact bracket _

/-- A type neither nullable nor a wrapper: a simple name, or a text that ends in a closer. -/
theorem spelling_plain {name : String} {args : List TypeRef}
    (other : isWrapper name args.length = false) :
    (args = [] ∧ spelling.type ⟨name, false, args⟩ = simpleName name) ∨
      args ≠ [] ∧ ∃ c ∈ closers, (spelling.type ⟨name, false, args⟩).toList.getLast? = some c := by
  cases args with
  | nil => exact .inl ⟨rfl, rfl⟩
  | cons arg args =>
    have length : (spelling.types args).length = args.length := by
      rw [Spelling.types_eq_map, List.length_map]
    rw [spelling_generic]
    exact .inr ⟨List.cons_ne_nil _ _,
      getLast?_genericName (by rwa [List.length_cons, length])⟩

theorem getLast?_spelling_plain {name : String} (unmarked : Unmarked name) {args : List TypeRef}
    (other : isWrapper name args.length = false) :
    (spelling.type ⟨name, false, args⟩).toList.getLast? ≠ some nullableMark := by
  rcases spelling_plain other with ⟨-, simple⟩ | ⟨-, c, closer, last⟩
  · rw [simple]
    exact (simpleName_unmarked unmarked).getLast?
  · rw [last]
    rintro ⟨⟩
    exact absurd closer (by decide)

theorem bare_of_not_isWrapper {name : String} {nullable : Bool} {args : List TypeRef}
    (other : isWrapper name args.length = false) :
    TypeRef.bare ⟨name, nullable, args⟩ = ⟨name, false, args⟩ := by
  rcases args with _ | ⟨arg, _ | ⟨second, rest⟩⟩
  · rfl
  · exact if_neg (Bool.eq_false_iff.1 other)
  · rfl

theorem exists_of_isWrapper {name : String} (nullable : Bool) {args : List TypeRef}
    (wrapper : isWrapper name args.length = true) :
    ∃ arg, args = [arg] ∧ lastSegment name = "Nullable" ∧
      TypeRef.bare ⟨name, nullable, args⟩ = arg.bare := by
  have both : lastSegment name = "Nullable" ∧ args.length = 1 := by
    simpa [isWrapper] using wrapper
  obtain ⟨arg, rfl⟩ := List.length_eq_one_iff.1 both.2
  exact ⟨arg, rfl, both.1, if_pos wrapper⟩

theorem isOptional_mk (name : String) (nullable : Bool) (args : List TypeRef) :
    TypeRef.isOptional ⟨name, nullable, args⟩ = (nullable || isWrapper name args.length) := rfl

/-- The text of a core has no mark at its end, and the text of a type has one more at most. -/
theorem typeText_eq_markedIf (type : TypeRef) (unmarked : ∀ name ∈ type.names, Unmarked name) :
    (typeMapper.type type.bare).toList.getLast? ≠ some nullableMark ∧
      typeMapper.type type = markedIf type.isOptional (typeMapper.type type.bare) := by
  change (spelling.type type.bare).toList.getLast? ≠ _ ∧
    spelling.type type = markedIf _ (spelling.type type.bare)
  induction type with
  | named name nullable args ih =>
    obtain ⟨own, inner⟩ := List.forall_mem_cons.1 unmarked
    -- the flag comes last, so the text before it is marked
    have text : (spelling.type (TypeRef.bare ⟨name, nullable, args⟩)).toList.getLast? ≠
          some nullableMark ∧
        spelling.type ⟨name, false, args⟩ = markedIf (isWrapper name args.length)
          (spelling.type (TypeRef.bare ⟨name, nullable, args⟩)) := by
      cases wrapper : isWrapper name args.length with
      | false =>
        rw [bare_of_not_isWrapper wrapper]
        exact ⟨getLast?_spelling_plain own wrapper, rfl⟩
      | true =>
        obtain ⟨arg, rfl, generic, bare⟩ := exists_of_isWrapper nullable wrapper
        have only := List.mem_singleton_self arg
        obtain ⟨last, inside⟩ := ih arg only (forall_mem_namesOfTypes.1 inner arg only)
        have marked : spelling.type ⟨name, false, [arg]⟩ = markNullable (spelling.type arg) :=
          if_pos generic
        rw [bare, marked, inside]
        exact ⟨last, markNullable_markedIf last _⟩
    refine ⟨text.1, ?_⟩
    cases nullable with
    | false => exact text.2
    | true =>
      rw [spelling_nullable, text.2, markNullable_markedIf text.1, isOptional_mk, Bool.true_or]

theorem splitNullable_typeText (type : TypeRef) (unmarked : ∀ name ∈ type.names, Unmarked name) :
    splitNullable (typeMapper.type type) = (typeMapper.type type.bare, type.isOptional) := by
  obtain ⟨last, marked⟩ := typeText_eq_markedIf type unmarked
  rw [marked, splitNullable_markedIf last]

theorem returnClause_unmarked (mapper : TypeMapper) (method : Method) :
    Unmarked (returnClause mapper method) := by
  have colon : Unmarked ": " := by decide
  unfold returnClause
  split
  · dsimp only
    split_ifs with _ marked
    · decide
    · decide
    · exact unmarked_append.2 ⟨colon, fun mark => marked (List.contains_iff_mem.2 mark)⟩
  · decide

theorem mem_names_of_bare {type : TypeRef} {name : String} (member : name ∈ type.bare.names) :
    name ∈ type.names := by
  induction type with
  | named own nullable args ih =>
    cases wrapper : isWrapper own args.length with
    | false =>
      rw [bare_of_not_isWrapper wrapper] at member
      exact member
    | true =>
      obtain ⟨arg, rfl, -, bare⟩ := exists_of_isWrapper nullable wrapper
      rw [bare] at member
      have inside := ih arg (List.mem_singleton_self arg) member
      exact List.mem_cons_of_mem _
        (mem_namesOfTypes.2 ⟨arg, List.mem_singleton_self arg, inside⟩)

section Signatures

theorem infix_append_left {front back piece : String} (inside : piece.toList <:+: front.toList) :
    piece.toList <:+: (front ++ back).toList := by
  rw [String.toList_append]
  exact inside.trans (List.prefix_append _ _).isInfix

theorem infix_append_right {front back piece : String} (inside : piece.toList <:+: back.toList) :
    piece.toList <:+: (front ++ back).toList := by
  rw [String.toList_append]
  exact inside.trans (List.suffix_append _ _).isInfix

theorem infix_intercalate {separator text : String} {texts : List String} (member : text ∈ texts) :
    text.toList <:+: (separator.intercalate texts).toList := by
  induction texts with
  | nil => cases member
  | cons first rest ih =>
    cases rest with
    | nil =>
      obtain rfl := List.mem_singleton.1 member
      simp
    | cons next rest =>
      rw [String.intercalate_cons_cons]
      rcases List.mem_cons.1 member with rfl | later
      · exact infix_append_left (infix_append_left (List.infix_refl _))
      · exact infix_append_right (ih later)

/-- Of several texts with separators, each has one behind it, and the last one has what follows. -/
theorem infix_intercalate_append {separator follow text : String} {texts : List String}
    (member : text ∈ texts) :
    ∃ back ∈ [separator, follow],
      (text ++ back).toList <:+: (separator.intercalate texts ++ follow).toList := by
  induction texts with
  | nil => cases member
  | cons first rest ih =>
    cases rest with
    | nil =>
      obtain rfl := List.mem_singleton.1 member
      exact ⟨follow, List.mem_cons_of_mem _ List.mem_cons_self, by simp⟩
    | cons next rest =>
      rw [String.intercalate_cons_cons]
      rcases List.mem_cons.1 member with rfl | later
      · exact ⟨separator, List.mem_cons_self,
          infix_append_left (infix_append_left (List.infix_refl _))⟩
      · obtain ⟨back, listed, inside⟩ := ih later
        rw [String.append_assoc]
        exact ⟨back, listed, infix_append_right inside⟩

/-- A type in a signature: its text, and what may stand in front of it and behind it. -/
structure Annotation where
  fronts : List String
  text : String
  backs : List String

/-- The type of a field or a property ends its line. -/
def annotatedField (mapper : TypeMapper) (name : String) (type : TypeRef) : Annotation where
  fronts := [name ++ ": ", name ++ "?: "]
  text := (splitNullable (mapper.type type)).1
  backs := [";\n"]

/-- The types in the signature of a member. The clause of a return type follows the parameters and
brings its colon. -/
def annotations (mapper : TypeMapper) : Member → List Annotation
  | .field name type _ => [annotatedField mapper name type]
  | .property name type => [annotatedField mapper name type]
  | .method value =>
    ⟨[")"], returnClause mapper value, ["\x7b\n"]⟩ ::
      value.parameters.map fun param =>
        ⟨[param.name ++ ": "], mapper.type param.type, [", ", ")"]⟩
  | .snippet _ => []

def Annotation.ShownIn (text : String) (typed : Annotation) : Prop :=
  ∃ front ∈ typed.fronts, ∃ back ∈ typed.backs,
    (front ++ typed.text ++ back).toList <:+: text.toList

theorem Annotation.ShownIn.within {typed : Annotation} {text whole : String}
    (shown : typed.ShownIn text) (inside : text.toList <:+: whole.toList) :
    typed.ShownIn whole := by
  obtain ⟨front, before, back, behind, there⟩ := shown
  exact ⟨front, before, back, behind, there.trans inside⟩

theorem shownIn_nameAndType (mapper : TypeMapper) (name : String) (type : TypeRef) :
    (annotatedField mapper name type).ShownIn (nameAndType mapper name type ++ ";\n") := by
  have sign : name ++ (if (splitNullable (mapper.type type)).2 then "?: " else ": ") ∈
      (annotatedField mapper name type).fronts := by
    cases (splitNullable (mapper.type type)).2 <;> simp [annotatedField]
  exact ⟨_, sign, _, List.mem_singleton_self _, List.infix_refl _⟩

theorem shownIn_memberText (mapper : TypeMapper) (options : Options) (member : Member) :
    Gives (fun text => ∀ typed ∈ annotations mapper member, typed.ShownIn text)
      (memberText mapper options member) := by
  cases member with
  | field name type _ | property name type =>
    refine .ok (List.forall_mem_singleton.2 ?_)
    rw [String.append_assoc]
    exact (shownIn_nameAndType mapper name type).within (infix_append_right (List.infix_refl _))
  | method value =>
    have body : Gives (fun _ => True) (blockText mapper options value.body) :=
      fun _ _ => trivial
    refine body.bind_ok fun _ _ => ?_
    refine List.forall_mem_cons.2 ⟨?_, List.forall_mem_map.2 fun param found => ?_⟩
    · -- three pieces follow the brace behind the clause of the return type
      have clause (front : String) : front ++ ")" ++ returnClause mapper value ++ "\x7b\n" =
          front ++ (")" ++ returnClause mapper value ++ "\x7b\n") := by
        simp only [String.append_assoc]
      refine ⟨_, List.mem_singleton_self _, _, List.mem_singleton_self _, ?_⟩
      iterate 3 refine infix_append_left ?_
      rw [clause]
      exact infix_append_right (List.infix_refl _)
    · have listed : param.name ++ ": " ++ mapper.type param.type ∈
          value.parameters.map fun p => p.name ++ ": " ++ mapper.type p.type :=
        List.mem_map.2 ⟨param, found, rfl⟩
      obtain ⟨back, behind, inside⟩ := infix_intercalate_append listed
      refine ⟨_, List.mem_singleton_self _, back, behind, inside.trans ?_⟩
      iterate 5 refine infix_append_left ?_
      rw [String.append_assoc]
      exact infix_append_right (List.infix_refl _)
  | snippet _ => exact .ok (List.forall_mem_nil _)

theorem shownIn_memberTexts (mapper : TypeMapper) (options : Options) (members : List Member) :
    Gives (fun text => ∀ member ∈ members, ∀ typed ∈ annotations mapper member,
      typed.ShownIn text) (memberTexts mapper options members) := by
  induction members with
  | nil => exact .ok (List.forall_mem_nil _)
  | cons member rest ih =>
    refine (shownIn_memberText mapper options member).bind fun text first => ?_
    refine ih.bind_ok fun texts others => List.forall_mem_cons.2 ⟨?_, ?_⟩
    · exact fun typed listed =>
        (first typed listed).within (infix_append_left (List.infix_refl _))
    · exact fun other inside typed listed =>
        (others other inside typed listed).within (infix_append_right (List.infix_refl _))

theorem shownIn_declarationText (mapper : TypeMapper) (options : Options)
    {declaration : Declaration} (other : declaration.isEnum = false) :
    Gives (fun text => ∀ member ∈ declaration.members, ∀ typed ∈ annotations mapper member,
      typed.ShownIn text) (declarationText mapper options declaration) := by
  have members : Gives (fun text => ∀ member ∈ declaration.members,
      ∀ typed ∈ annotations mapper member, typed.ShownIn text)
      (membersText mapper options declaration) := by
    rw [membersText, other, if_neg Bool.false_ne_true]
    refine (shownIn_memberTexts mapper options.nested declaration.members).bind_ok ?_
    intro text each member inside typed listed
    refine (each member inside typed listed).within ?_
    iterate 2 refine infix_append_left ?_
    exact infix_append_right (List.infix_refl _)
  refine members.bind_ok fun text each member inside typed listed => ?_
  exact (each member inside typed listed).within (infix_append_right (List.infix_refl _))

end Signatures

/-- The types whose marks stay in a signature: fields lose the mark at the end. -/
def keptTypes : Member → List TypeRef
  | .field _ type _ => [type.bare]
  | .property _ type => [type.bare]
  | .method value => value.parameters.map Parameter.type
  | .snippet _ => []

theorem annotations_unmarked {member : Member} (words : ∀ word ∈ member.words, Unmarked word) :
    (∀ typed ∈ annotations typeMapper member, Unmarked typed.text) ↔
      ∀ type ∈ keptTypes member, type.isMarked = false := by
  cases member with
  | field name type _ | property name type =>
    obtain ⟨-, names⟩ := List.forall_mem_cons.1 words
    have bare := typeText_unmarked_iff type.bare fun name part =>
      names name (mem_names_of_bare part)
    simp [annotations, annotatedField, keptTypes, splitNullable_typeText type names, bare]
  | method value =>
    obtain ⟨-, others⟩ := List.forall_mem_cons.1 words
    obtain ⟨params, -⟩ := List.forall_mem_append.1 others
    simp only [annotations, keptTypes, List.forall_mem_cons, List.forall_mem_map,
      returnClause_unmarked, true_and]
    refine forall₂_congr fun param found => typeText_unmarked_iff param.type fun name part => ?_
    exact params name (List.mem_flatMap.2 ⟨param, found, List.mem_cons_of_mem _ part⟩)
  | snippet text => simp [annotations, keptTypes]

/-- Every type in the signatures of a class or an interface is printed behind its name, with nothing
between the type and what ends it. Marks are left in these types exactly where parameters are marked
and where fields are marked inside. -/
theorem annotations_unmarked_iff (declaration : Declaration)
    (unmarked : ∀ member ∈ declaration.members, ∀ word ∈ member.words, Unmarked word) :
    (declaration.isEnum = false → ∀ options text,
      declarationText typeMapper options declaration = .ok text →
        ∀ member ∈ declaration.members, ∀ typed ∈ annotations typeMapper member,
          typed.ShownIn text) ∧
    ((∀ member ∈ declaration.members, ∀ typed ∈ annotations typeMapper member,
        Unmarked typed.text) ↔
      ∀ member ∈ declaration.members, ∀ type ∈ keptTypes member, type.isMarked = false) := by
  refine ⟨fun other options => shownIn_declarationText typeMapper options other, ?_⟩
  exact forall₂_congr fun member inside => annotations_unmarked (unmarked member inside)

def nullableClass : Declaration :=
  { kind := .classType, name := "C"
    members := [.method {
      name := "find"
      parameters := [⟨"key", TypeRef.string.orNull⟩]
      returnType := some .bool }] }

theorem annotations_unmarked_iff_nullableClass :
    (∀ text, declarationText typeMapper {} nullableClass = .ok text →
      ∀ member ∈ nullableClass.members, ∀ typed ∈ annotations typeMapper member,
        typed.ShownIn text) ∧
    ¬∀ member ∈ nullableClass.members, ∀ typed ∈ annotations typeMapper member,
      Unmarked typed.text := by
  obtain ⟨shown, marks⟩ := annotations_unmarked_iff nullableClass (by decide)
  refine ⟨shown rfl {}, ?_⟩
  rw [marks]
  decide

theorem declarationText_nullableClass :
    declarationText typeMapper {} nullableClass =
      .ok "export class C \x7b\n\n    find(key: string?): boolean\x7b\n    \x7d\n\x7d\n" := by
  decide +kernel

end ApiClient.TypeScript
