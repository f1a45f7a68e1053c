import ApiClient.Proofs.Client.Concatenation
import ApiClient.Proofs.Manifest.Validation

/-! The address of a request has the value that its template describes.

Quotes in the text of an address open a literal, close one, or are escaped inside one. So the
text reads as a concatenation before the empty literal is erased, and erasing it keeps the value.
-/

set_option autoImplicit false

namespace ApiClient.Client

open ApiClient.Manifest

/-- The addresses that parts stand for: literal text as it is, and for a variable the value of a
parameter with its name. -/
inductive Fills (parameters : List ApiParameter) (values : String → String) :
    List UriPart → String → Prop where
  | nil : Fills parameters values [] ""
  | text {text : String} {parts : List UriPart} {address : String} :
    Fills parameters values parts address →
      Fills parameters values (.literal text :: parts) (text ++ address)
  | value {name : String} {parameter : ApiParameter} {parts : List UriPart} {address : String} :
    parameter ∈ parameters → sameName parameter.name name = true →
    Fills parameters values parts address →
      Fills parameters values (.variable name :: parts) (values parameter.name ++ address)

theorem Fills.unique {parameters : List ApiParameter} (distinct : DistinctNames parameters)
    {values : String → String} {parts : List UriPart} {first second : String}
    (left : Fills parameters values parts first) (right : Fills parameters values parts second) :
    first = second := by
  induction left generalizing second with
  | nil => cases right; rfl
  | text _ ih =>
    cases right with
    | text rest => rw [ih rest]
  | value member same _ ih =>
    cases right with
    | value member' same' rest =>
      rw [distinct.eq_of_sameName member member' (sameName_of_sameName same same'), ih rest]

section

variable {operation : ApiOperation}

theorem Reading.run_operand_name {name : String} (valid : Identifier.problem? name = none)
    (terms : List Term) :
    Reading.run ⟨terms, .operand⟩ name.toList = some ⟨terms, .word name.toList⟩ := by
  obtain ⟨c, rest, eq, -, letters, -⟩ := (Identifier.problem?_eq_none_iff name).1 valid
  have letter := letters c (by simp)
  have first : step ⟨terms, .operand⟩ c = some ⟨terms, .word [c]⟩ := by
    have space : c ≠ ' ' := by rintro rfl; contradiction
    have quote : c ≠ '\'' := by rintro rfl; contradiction
    simp [step, letter, space, quote]
  rw [eq, run_cons, first, Option.bind_eq_bind, Option.bind_some]
  exact run_word terms rest [c] fun d member => letters d (by simp [member])

theorem Reading.run_interruption {name : String} (valid : Identifier.problem? name = none)
    (terms : List Term) (read : List Char) :
    Reading.run ⟨terms, .quoted read⟩ ("'+" ++ name ++ "+'").toList =
      some ⟨terms ++ [.literal (String.ofList read), .reference name], .quoted []⟩ := by
  have opening : Reading.run ⟨terms, .quoted read⟩ "'+".toList =
      some ⟨terms ++ [.literal (String.ofList read)], .operand⟩ := rfl
  have isName : isName name.toList = true := by simp [isName, valid]
  have closing : Reading.run ⟨terms ++ [.literal (String.ofList read)], .word name.toList⟩
      "+'".toList =
      some ⟨terms ++ [.literal (String.ofList read), .reference name], .quoted []⟩ := by
    simp [step, isIdentifierChar_plus, isName, operator?]
  rw [String.toList_append, String.toList_append, List.append_assoc, run_append, opening,
    Option.bind_eq_bind, Option.bind_some, run_append, run_operand_name valid,
    Option.bind_eq_bind, Option.bind_some, closing]

theorem read?_spliceParts
    (identifiers : ∀ parameter ∈ operation.parameters, Identifier.problem? parameter.name = none)
    (parts : List UriPart)
    (declared : ∀ name, UriPart.variable name ∈ parts →
      Declared operation.parameters name)
    (read : List Char) :
    ∃ path terms, spliceParts operation parts = .ok path ∧
      Reading.read? ⟨[], .quoted read⟩ (path.toList ++ ['\'']) = some terms ∧
      (∀ name, .reference name ∈ terms → ∃ parameter ∈ operation.parameters,
        parameter.name = name) ∧
      ∀ values, ∃ address, Fills operation.parameters values parts address ∧
        String.join (terms.map (Term.value values)) = String.ofList read ++ address := by
  -- `read` is the part of the open literal that has been read already
  induction parts generalizing read with
  | nil =>
    refine ⟨"", [.literal (String.ofList read)], rfl, rfl, by simp, fun values => ?_⟩
    exact ⟨"", .nil, by simp [Term.value]⟩
  | cons part parts ih =>
    have later := fun name member => declared name (List.mem_cons_of_mem part member)
    cases part with
    | literal text =>
      obtain ⟨path, terms, splice, ends, references, value⟩ := ih later (read ++ text.toList)
      refine ⟨Text.escapeSingleQuoted text ++ path, terms, ?_, ?_, references, fun values => ?_⟩
      · simp only [spliceParts, splice]
        rfl
      · rw [String.toList_append, Text.escapeSingleQuoted, Text.escapeWith, String.toList_ofList,
          List.append_assoc, Reading.read?, Reading.run_quoted]
        exact ends
      · obtain ⟨address, fills, eq⟩ := value values
        refine ⟨text ++ address, .text fills, ?_⟩
        rw [eq, String.ofList_append, String.ofList_toList, String.append_assoc]
    | «variable» name =>
      obtain ⟨parameter, member, found, same⟩ := (declared name (by simp)).parameter?_eq_some
      obtain ⟨path, terms, splice, ends, references, value⟩ := ih later []
      -- the literal behind the variable is a new one, so the rest is read from an empty literal
      refine ⟨"'+" ++ parameter.name ++ "+'" ++ path,
        .literal (String.ofList read) :: .reference parameter.name :: terms, ?_, ?_, ?_,
        fun values => ?_⟩
      · simp only [spliceParts, found, splice]
        rfl
      · have behind := @Reading.read?_after ⟨[], .quoted []⟩
          [.literal (String.ofList read), .reference parameter.name] (path.toList ++ ['\''])
        rw [ends] at behind
        rw [String.toList_append, List.append_assoc, Reading.read?_append,
          Reading.run_interruption (identifiers parameter member)]
        exact behind
      · intro wanted mentioned
        rcases List.mem_cons.1 mentioned with other | mentioned
        · contradiction
        · rcases List.mem_cons.1 mentioned with this | mentioned
          · exact ⟨parameter, member, (Term.reference.inj this).symm⟩
          · exact references wanted mentioned
      · obtain ⟨address, fills, eq⟩ := value values
        refine ⟨values parameter.name ++ address, .value member same fills, ?_⟩
        simp [Term.value, String.join_cons, eq]

theorem declared_of_mem_parts
    (declared : ∀ name ∈ UriTemplate.variableNames operation.path,
      Declared operation.parameters name) (name : String)
    (member : UriPart.variable name ∈ UriTemplate.parts operation.path) :
    Declared operation.parameters name :=
  declared name (List.mem_filterMap.2 ⟨_, member, rfl⟩)

theorem uriText_of_spliceParts {path : String}
    (splice : spliceParts operation (UriTemplate.parts operation.path) = .ok path) :
    uriText operation = .ok (String.ofList (Text.eraseFirst emptyLiteral
      ("this.baseUri + '" ++ path ++ "'").toList)) := by
  rw [uriText, splice]
  rfl

theorem readTerms?_addressText {path : String} {terms : List Term}
    (ends : Reading.read? ⟨[], .quoted []⟩ (path.toList ++ ['\'']) = some terms) :
    readTerms? ("this.baseUri + '" ++ path ++ "'") = some terms := by
  have start : "this.baseUri + '".toList = baseText ++ [' ', '+', ' ', '\''] := by decide
  apply readTerms?_eq_some_iff.2
  refine ⟨[' ', '+', ' ', '\''] ++ (path.toList ++ ['\'']), ?_, ends⟩
  rw [String.toList_append, String.toList_append, start]
  simp

theorem sumValue_erase (base : String) (values : String → String) (front back : List Term) :
    sumValue base values (front ++ .literal "" :: back) = sumValue base values (front ++ back) := by
  simp [sumValue, Term.value]

/-- The text of an address reads as a concatenation of literals and names of parameters, whose value
is the base followed by the one address that its template stands for. The erased characters were
one empty literal, if any. -/
theorem uriText_reads (operation : ApiOperation)
    (identifiers : ∀ parameter ∈ operation.parameters, Identifier.problem? parameter.name = none)
    (distinct : DistinctNames operation.parameters)
    (declared : ∀ name ∈ UriTemplate.variableNames operation.path,
      Declared operation.parameters name) :
    ∃ path whole text terms,
      spliceParts operation (UriTemplate.parts operation.path) = .ok path ∧
      readTerms? ("this.baseUri + '" ++ path ++ "'") = some whole ∧
      uriText operation = .ok text ∧
      readTerms? text = some terms ∧
      (terms = whole ∨ ∃ front back, whole = front ++ .literal "" :: back ∧ terms = front ++ back) ∧
      (∀ name, .reference name ∈ terms → ∃ parameter ∈ operation.parameters,
        parameter.name = name) ∧
      ∀ base values address, sumValue base values terms = base ++ address ↔
        Fills operation.parameters values (UriTemplate.parts operation.path) address := by
  obtain ⟨path, whole, splice, ends, references, value⟩ :=
    read?_spliceParts identifiers (UriTemplate.parts operation.path)
      (declared_of_mem_parts declared) []
  have read := readTerms?_addressText ends
  obtain ⟨terms, erased, less⟩ := readTerms?_eraseFirst read
  -- erasing took away one literal at most, so no name is new
  have sub : ∀ term ∈ terms, term ∈ whole := by
    rcases less with rfl | ⟨front, back, rfl, rfl⟩
    · exact fun _ member => member
    · intro term member
      rcases List.mem_append.1 member with early | late
      · simp [early]
      · simp [late]
  have sum : ∀ base values, sumValue base values terms = sumValue base values whole := by
    intro base values
    rcases less with rfl | ⟨front, back, rfl, rfl⟩
    · rfl
    · exact (sumValue_erase base values front back).symm
  refine ⟨path, whole, _, terms, splice, read, uriText_of_spliceParts splice, erased, less,
    fun name member => references name (sub _ member), fun base values address => ?_⟩
  obtain ⟨expected, fills, eq⟩ := value values
  rw [sum, sumValue, eq, String.ofList_nil, String.empty_append, String.append_right_inj]
  constructor
  · rintro rfl
    exact fills
  · exact fun other => fills.unique distinct other

end

/-- A path with a quote, an empty literal of its own, and variables next to each other. -/
def searchOperation : ApiOperation where
  name := "Search"
  method := .get
  path := "it's/{ID:int}{take?}+''/{id}"
  parameters := [{ name := "id", type := .int }, { name := "take", type := .int }]

theorem uriText_reads_search :
    ∃ text terms, uriText searchOperation = .ok text ∧ readTerms? text = some terms ∧
      sumValue "/" (fun name => "<" ++ name ++ ">") terms = "/" ++ "it's/<id><take>+''/<id>" := by
  obtain ⟨_, _, text, terms, _, _, built, read, _, _, value⟩ :=
    uriText_reads searchOperation (by decide) (by unfold DistinctNames; decide)
      (by unfold Declared; decide)
  refine ⟨text, terms, built, read, (value _ _ _).2 ?_⟩
  have parts : UriTemplate.parts searchOperation.path =
      [.literal "it's/", .variable "ID", .variable "take", .literal "+''/", .variable "id"] := by
    decide
  have id : (⟨"id", .int, none, false⟩ : ApiParameter) ∈ searchOperation.parameters := .head _
  have take : (⟨"take", .int, none, false⟩ : ApiParameter) ∈ searchOperation.parameters :=
    .tail _ (.head _)
  rw [parts]
  exact .text (.value id (by decide) (.value take (by decide)
    (.text (.value id (by decide) .nil))))

end ApiClient.Client
