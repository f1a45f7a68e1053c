import ApiClient.Proofs.Layout.Depth
import ApiClient.Proofs.Tree.RoundTrip
import ApiClient.TypeScript.Document

/-! Declarations that are stored as data and rendered later.

What is stored is read back, so a document has the texts of its declarations with an empty line
between two of them, or the error of the first declaration that has none. A double is stored as
long as its shortest text is read as that double again, which not every double is.
-/

set_option autoImplicit false

namespace ApiClient.TypeScript

open ApiClient.Layout ApiClient.Number ApiClient.Tree

def storedArray (declarations : List Declaration) : Json :=
  .array (declarations.map Declaration.toJson)

theorem declarationsOfJson?_storedArray (declarations : List Declaration) :
    declarationsOfJson? (storedArray declarations) = some declarations := by
  have several : Declaration.read? .shared (storedArray declarations) = none := by
    -- the first item is an object with a kind, a name and more, and so it is no word
    refine Declaration.read?_array fun first inside => ?_
    rw [List.head?_map] at inside
    obtain ⟨declaration, -, rfl⟩ := Option.map_eq_some_iff.1 inside
    exact declaration.word?_toJson .shared
  rw [declarationsOfJson?, several]
  exact Json.listOf?_map fun declaration _ => declaration.read?_toJson .shared

/-- An array of the fields of a declaration is that one declaration. -/
example : (declarationsOfJson? (.array [.string "class", .string "C"])).map
    (·.map Declaration.name) = some ["C"] := by
  decide

theorem declarationsOfJson?_toJson (declaration : Declaration) :
    declarationsOfJson? declaration.toJson = some [declaration] := by
  rw [declarationsOfJson?, declaration.read?_toJson]
  rfl

theorem readDeclarations?_storedArray {declarations : List Declaration}
    (storable : ∀ declaration ∈ declarations, declaration.IsStorable)
    (shallow : (storedArray declarations).depth ≤ nestingLimit) :
    readDeclarations? (storedArray declarations).render = some declarations := by
  have writable : Json.Writable (storedArray declarations) :=
    .array (List.forall_mem_map.2 fun declaration member =>
      Declaration.writable_toJson (storable declaration member))
  rw [readDeclarations?, Json.parse?_render writable shallow]
  exact declarationsOfJson?_storedArray declarations

theorem readDeclarations?_toJson {declaration : Declaration} (storable : declaration.IsStorable)
    (shallow : declaration.toJson.depth ≤ nestingLimit) :
    readDeclarations? declaration.toJson.render = some [declaration] := by
  rw [readDeclarations?, Json.parse?_render (Declaration.writable_toJson storable) shallow]
  exact declarationsOfJson?_toJson declaration

/-- A text whose first line is not empty and whose last line ends in a closing brace. -/
structure FillsLines (text : String) : Prop where
  starts : text.toList.head? ≠ some '\n'
  ends : ∃ body, text = body ++ "\x7d\n"

theorem membersText_ends {mapper : TypeMapper} {options : Options} {declaration : Declaration}
    {text : String} (rendered : membersText mapper options declaration = .ok text) :
    ∃ body, text = body ++ "\x7d\n" := by
  unfold membersText at rendered
  split at rendered
  · cases texts : enumMemberTexts declaration.name declaration.members with
    | error cause =>
      rw [texts] at rendered
      cases rendered
    | ok names =>
      rw [texts] at rendered
      cases rendered
      exact ⟨_, rfl⟩
  · cases texts : memberTexts mapper options.nested declaration.members with
    | error cause =>
      rw [texts] at rendered
      cases rendered
    | ok members =>
      rw [texts] at rendered
      cases rendered
      exact ⟨_, rfl⟩

theorem head?_append_ne_feed {front : String} (oneLine : Text.OneLine front) (full : front ≠ "")
    (back : String) : (front ++ back).toList.head? ≠ some '\n' := by
  cases text : front.toList with
  | nil => exact absurd (String.toList_eq_nil_iff.1 text) full
  | cons c rest =>
    rw [String.toList_append, text]
    rintro ⟨⟩
    exact oneLine (by rw [text]; exact List.mem_cons_self ..)

theorem headText_starts (mapper : TypeMapper) (options : Options) (declaration : Declaration)
    (back : String) :
    (headText mapper options declaration ++ back).toList.head? ≠ some '\n' := by
  have margin : Text.OneLine options.margin := options.indent.times_oneLine options.depth
  have visibility : Text.OneLine (if declaration.exported then "export " else "") := by
    split <;> decide
  have keyword : Text.OneLine declaration.kind.keyword ∧ declaration.kind.keyword ≠ "" := by
    cases declaration.kind <;> decide
  have opening := (margin.append visibility).append keyword.1
  have full : options.margin ++ (if declaration.exported then "export " else "") ++
      declaration.kind.keyword ≠ "" := by
    simp [keyword.2]
  simpa only [headText, String.append_assoc] using head?_append_ne_feed opening full _

theorem declarationText_fillsLines {mapper : TypeMapper} {options : Options}
    {declaration : Declaration} {text : String}
    (rendered : declarationText mapper options declaration = .ok text) : FillsLines text := by
  cases members : membersText mapper options declaration with
  | error cause =>
    rw [declarationText, members] at rendered
    cases rendered
  | ok rest =>
    rw [declarationText, members] at rendered
    cases rendered
    obtain ⟨body, rfl⟩ := membersText_ends members
    exact ⟨headText_starts mapper options declaration _,
      headText mapper options declaration ++ body, (String.append_assoc ..).symm⟩

theorem forall_fillsLines {mapper : TypeMapper} {options : Options}
    {declarations : List Declaration} {texts : List String}
    (each : List.Forall₂ (fun declaration text =>
      declarationText mapper options declaration = .ok text) declarations texts) :
    ∀ text ∈ texts, FillsLines text := by
  induction each with
  | nil => exact List.forall_mem_nil _
  | cons rendered _ ih =>
    exact List.forall_mem_cons.2 ⟨declarationText_fillsLines rendered, ih⟩

theorem renderAll_outcome (mapper : TypeMapper) (options : Options)
    (declarations : List Declaration) :
    (∃ texts, renderAll mapper options declarations = .ok texts ∧
      List.Forall₂ (fun declaration text => declarationText mapper options declaration = .ok text)
        declarations texts) ∨
    ∃ before declaration after cause, declarations = before ++ declaration :: after ∧
      (∀ earlier ∈ before, ∃ text, declarationText mapper options earlier = .ok text) ∧
      declarationText mapper options declaration = .error cause ∧
      renderAll mapper options declarations = .error (.render declaration.name cause) := by
  induction declarations with
  | nil => exact .inl ⟨[], rfl, .nil⟩
  | cons first rest ih =>
    cases rendered : declarationText mapper options first with
    | error cause =>
      refine .inr ⟨[], first, rest, cause, rfl, List.forall_mem_nil _, rendered, ?_⟩
      rw [renderAll, rendered]
      rfl
    | ok text =>
      have step : renderAll mapper options (first :: rest) =
          renderAll mapper options rest >>= fun texts => .ok (text :: texts) := by
        rw [renderAll, rendered]
        rfl
      rw [step]
      rcases ih with ⟨texts, done, each⟩ |
        ⟨before, declaration, after, cause, rfl, earlier, failed, stopped⟩
      · exact .inl ⟨text :: texts, by rw [done]; rfl, .cons rendered each⟩
      · refine .inr ⟨first :: before, declaration, after, cause, rfl, ?_, failed, ?_⟩
        · exact List.forall_mem_cons.2 ⟨⟨text, rendered⟩, earlier⟩
        · rw [stopped]
          rfl

theorem renderDocument_of_read {options : Options} {text : String}
    {declarations : List Declaration} (read : readDeclarations? text = some declarations) :
    renderDocument options text =
      (renderAll typeMapper options declarations).map ("\n".intercalate ·) := by
  rw [renderDocument, read]
  cases rendered : renderAll typeMapper options declarations with
  | error cause =>
    simp only [rendered]
    rfl
  | ok texts =>
    simp only [rendered]
    change Except.ok (CodeFile.addAll {} texts).render = Except.ok _
    simp [CodeFile.render, CodeFile.addAll, CodeFile.headerText]

/-- Declarations that were stored are rendered as if they had not been: the document has their
texts in order, or the error of the first that has none. One declaration may be stored alone. -/
theorem renderDocument_storedArray (options : Options) (declarations : List Declaration)
    (storable : ∀ declaration ∈ declarations, declaration.IsStorable)
    (shallow : (storedArray declarations).depth ≤ nestingLimit) :
    ((∃ texts, List.Forall₂ (fun declaration text =>
          declarationText typeMapper options declaration = .ok text) declarations texts ∧
        (∀ text ∈ texts, FillsLines text) ∧
        renderDocument options (storedArray declarations).render =
          .ok ("\n".intercalate texts)) ∨
      ∃ before declaration after cause, declarations = before ++ declaration :: after ∧
        (∀ earlier ∈ before, ∃ text, declarationText typeMapper options earlier = .ok text) ∧
        declarationText typeMapper options declaration = .error cause ∧
        renderDocument options (storedArray declarations).render =
          .error (.render declaration.name cause)) ∧
    ∀ declaration, declarations = [declaration] →
      renderDocument options declaration.toJson.render =
        renderDocument options (storedArray declarations).render := by
  have read := readDeclarations?_storedArray storable shallow
  constructor
  · rw [renderDocument_of_read read]
    rcases renderAll_outcome typeMapper options declarations with
      ⟨texts, done, each⟩ | ⟨before, declaration, after, cause, split, earlier, failed, stopped⟩
    · exact .inl ⟨texts, each, forall_fillsLines each, by rw [done]; rfl⟩
    · exact .inr ⟨before, declaration, after, cause, split, earlier, failed, by rw [stopped]; rfl⟩
  · rintro declaration rfl
    have inside : declaration.toJson ∈ [declaration].map Declaration.toJson := by simp
    have alone := readDeclarations?_toJson (storable declaration (List.mem_singleton_self _))
      ((Json.depth_lt_of_mem_items inside).le.trans shallow)
    rw [renderDocument_of_read read, renderDocument_of_read alone]

/-- An enumeration with a double, and a class that has no text under the strict policy. -/
def mixedDeclarations : List Declaration :=
  [{ kind := .enumType, name := "Ratio"
     members := [.enumMember "Half" (some (.literal (.float (.ofDecimal false 5 (-1)))))] },
   { kind := .classType, name := "Jumps"
     members := [.method { name := "jump", body := [.unsupported .goto] }] },
   { kind := .interfaceType, name := "Named", members := [.property "name" TypeRef.string.orNull] }]

theorem renderDocument_storedArray_strict :
    ∃ before declaration after cause, mixedDeclarations = before ++ declaration :: after ∧
      (∀ earlier ∈ before, ∃ text, declarationText typeMapper .strict earlier = .ok text) ∧
      declarationText typeMapper .strict declaration = .error cause ∧
      renderDocument .strict (storedArray mixedDeclarations).render =
        .error (.render declaration.name cause) := by
  have half : Json.ReadsBack (.ofDecimal false 5 (-1)) := ⟨"0.5", by decide +kernel, by rfl⟩
  have storable : ∀ declaration ∈ mixedDeclarations, declaration.IsStorable := by
    simp [mixedDeclarations, Declaration.IsStorable, Member.enumMember, Member.IsStorable,
      Expression.IsStorable, Expression.parts, Expression.literal?, Literal.IsStorable, half,
      Statement.IsStorable, Statement.parts, Statement.expressions]
  refine (renderDocument_storedArray .strict mixedDeclarations storable
    (by decide +kernel)).1.resolve_left ?_
  rintro ⟨texts, each, -⟩
  cases each with
  | cons _ others =>
    cases others with
    | cons rendered _ => cases rendered

/-- A constant whose shortest text is read as the double below it. -/
def driftingEnum : Declaration where
  kind := .enumType
  name := "E"
  members := [.enumMember "A" (some (.literal (.float (.ofDecimal false 1 (-30)))))]

theorem renderDocument_driftingEnum :
    (Binary64.ofDecimal false 1 (-30)).isFinite = true ∧
    (storedArray [driftingEnum]).depth ≤ nestingLimit ∧
    declarationText typeMapper {} driftingEnum =
      .ok "export enum E \x7bA=0.000000000000000000000000000001\x7d\n" ∧
    renderDocument {} (storedArray [driftingEnum]).render =
      .ok "export enum E \x7bA=0.0000000000000000000000000000009999999999999999\x7d\n" := by
  decide +kernel

end ApiClient.TypeScript
