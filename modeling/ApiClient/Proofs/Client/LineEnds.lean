import ApiClient.Proofs.Client.Preview
import ApiClient.Proofs.TypeScript.Nullable
import ApiClient.Proofs.TypeScript.Siblings

/-! Line ends inside the literals of an address.

A literal between single quotes has to end on the line on which it starts. The address escapes
quotes and backslashes and nothing else, so its literals stay closed and apart from each other, and
a line end between quotes is one that the text of the path has outside of its braces.
-/

set_option autoImplicit false

namespace ApiClient.Client

open ApiClient.Layout ApiClient.Manifest ApiClient.Tree ApiClient.TypeScript

/-- Where a character stands: outside of single quotes, between them, or there behind a
backslash. -/
inductive Region where
  | code
  | quoted
  | escaped
  deriving DecidableEq

namespace Region

def next (c : Char) : Region → Region
  | .code => if c = '\'' then .quoted else .code
  | .quoted => if c = '\'' then .code else if c = '\\' then .escaped else .quoted
  | .escaped => .quoted

def after (region : Region) (cs : List Char) : Region :=
  cs.foldl (fun region c => region.next c) region

end Region

def isLineBreak (c : Char) : Bool :=
  c == '\n' || c == '\r'

def hasLineBreak (text : String) : Bool :=
  text.toList.any isLineBreak

def breaksFrom : Region → List Char → Bool
  | _, [] => false
  | region, c :: rest => region != .code && isLineBreak c || breaksFrom (region.next c) rest

/-- A literal of a text goes on behind the end of its line. -/
def BreaksLiteral (text : String) : Prop :=
  breaksFrom .code text.toList = true

instance (text : String) : Decidable (BreaksLiteral text) :=
  inferInstanceAs (Decidable (_ = true))

section Scanning

theorem Region.after_append (region : Region) (front back : List Char) :
    region.after (front ++ back) = (region.after front).after back :=
  List.foldl_append

theorem breaksFrom_append (region : Region) (front back : List Char) :
    breaksFrom region (front ++ back) =
      (breaksFrom region front || breaksFrom (region.after front) back) := by
  induction front generalizing region with
  | nil => rfl
  | cons c front ih =>
    rw [List.cons_append, breaksFrom, ih, breaksFrom, Bool.or_assoc]
    rfl

theorem code_of_not_mem {cs : List Char} (free : '\'' ∉ cs) :
    breaksFrom .code cs = false ∧ Region.code.after cs = .code := by
  induction cs with
  | nil => exact ⟨rfl, rfl⟩
  | cons c cs ih =>
    obtain ⟨other, later⟩ := not_or.1 (mt List.mem_cons.2 free)
    have stays : Region.code.next c = .code := if_neg (Ne.symm other)
    obtain ⟨unbroken, ends⟩ := ih later
    rw [breaksFrom, Region.after, List.foldl_cons, stays]
    exact ⟨unbroken, ends⟩

end Scanning

section Reading

/-- The region that the reader of an address is in. -/
def Mode.region : Mode → Region
  | .between => .code
  | .operand => .code
  | .quoted _ => .quoted
  | .escaped _ => .escaped
  | .word _ => .code

theorem isIdentifierChar_ne {c : Char} (letter : Identifier.isIdentifierChar c = true) :
    c ≠ '\'' ∧ isLineBreak c = false := by
  have feed : c ≠ '\n' := by rintro rfl; contradiction
  have carriage : c ≠ '\r' := by rintro rfl; contradiction
  exact ⟨by rintro rfl; contradiction, by simp [isLineBreak, feed, carriage]⟩

namespace Reading

variable {reading next : Reading} {c : Char}

/-- A character that is read in a region: the reader goes on as the scan does, and no line ends in
code. -/
structure Passes (region : Region) (c : Char) (next : Reading) : Prop where
  goesOn : next.mode.region = region.next c
  unbroken : region = Region.code → isLineBreak c = false

theorem operator?_passes {terms : List Term} (passed : operator? terms c = some next) :
    Passes .code c next := by
  unfold operator? at passed
  split at passed
  · next space =>
    subst space
    cases passed
    exact ⟨rfl, fun _ => rfl⟩
  split at passed
  · next plus =>
    subst plus
    cases passed
    exact ⟨rfl, fun _ => rfl⟩
  · cases passed

theorem letter_passes (letter : Identifier.isIdentifierChar c = true) (terms : List Term)
    (name : List Char) : Passes .code c ⟨terms, .word name⟩ := by
  obtain ⟨other, unbroken⟩ := isIdentifierChar_ne letter
  exact ⟨(if_neg other).symm, fun _ => unbroken⟩

theorem quoted_passes (region : next.mode.region = Region.quoted.next c) :
    Passes .quoted c next := by
  have inside : Region.quoted ≠ .code := by decide
  exact ⟨region, fun code => absurd code inside⟩

theorem escaped_passes (region : next.mode.region = .quoted) : Passes .escaped c next := by
  have inside : Region.escaped ≠ .code := by decide
  exact ⟨region, fun code => absurd code inside⟩

theorem step_passes (passed : reading.step c = some next) : Passes reading.mode.region c next := by
  obtain ⟨terms, mode⟩ := reading
  cases mode with
  | between => exact operator?_passes passed
  | operand =>
    simp only [step] at passed
    split at passed
    · next space =>
      subst space
      cases passed
      exact ⟨rfl, fun _ => rfl⟩
    split at passed
    · next quote =>
      subst quote
      cases passed
      exact ⟨rfl, fun _ => rfl⟩
    split at passed
    · next letter =>
      cases passed
      exact letter_passes letter terms _
    · cases passed
  | quoted text =>
    simp only [step] at passed
    split at passed
    · next quote =>
      cases passed
      exact quoted_passes (if_pos quote).symm
    split at passed
    · next slash =>
      subst slash
      cases passed
      exact quoted_passes rfl
    · next other plain =>
      cases passed
      exact quoted_passes (by simp [Mode.region, Region.next, other, plain])
  | escaped text =>
    simp only [step] at passed
    split at passed
    · cases passed
      exact escaped_passes rfl
    · cases passed
  | word name =>
    simp only [step] at passed
    split at passed
    · next letter =>
      cases passed
      exact letter_passes letter terms _
    split at passed
    · exact operator?_passes passed
    · cases passed

/-- A text that is read: every line end in it is between quotes. -/
theorem run_region {cs : List Char} (passed : reading.run cs = some next) :
    next.mode.region = reading.mode.region.after cs ∧
      breaksFrom reading.mode.region cs = cs.any isLineBreak := by
  induction cs generalizing reading with
  | nil =>
    cases passed
    exact ⟨rfl, rfl⟩
  | cons c cs ih =>
    obtain ⟨middle, first, rest⟩ := Option.bind_eq_some_iff.1 passed
    obtain ⟨region, unbroken⟩ := step_passes first
    obtain ⟨ends, breaks⟩ := ih rest
    rw [breaksFrom, ← region, breaks, List.any_cons]
    refine ⟨by rw [ends, region]; rfl, ?_⟩
    -- between quotes a line end counts, and in code none is read
    by_cases code : reading.mode.region = .code
    · rw [unbroken code, Bool.and_false]
    · rw [bne_iff_ne.2 code, Bool.true_and]

theorem region_of_finish? {terms : List Term} (ends : reading.finish? = some terms) :
    reading.mode.region = .code := by
  obtain ⟨held, mode⟩ := reading
  cases mode with
  | between | word => rfl
  | operand | quoted | escaped => cases ends

end Reading

/-- An address that reads as a concatenation breaks a literal wherever a line ends in it, and what
follows it is code again. -/
theorem breaksFrom_of_readTerms? {text : String} {terms : List Term}
    (read : readTerms? text = some terms) :
    breaksFrom .code text.toList = hasLineBreak text ∧
      Region.code.after text.toList = .code := by
  obtain ⟨rest, start, read⟩ := readTerms?_eq_some_iff.1 read
  obtain ⟨reached, run, ends⟩ := Option.bind_eq_some_iff.1 read
  obtain ⟨region, breaks⟩ := Reading.run_region run
  have quoteless : '\'' ∉ baseText := by decide
  obtain ⟨unbroken, code⟩ := code_of_not_mem quoteless
  have free : baseText.any isLineBreak = false := by decide
  constructor
  · rw [hasLineBreak, start, breaksFrom_append, unbroken, code, List.any_append, free]
    exact congrArg (false || ·) breaks
  · rw [start, Region.after_append, code]
    exact region.symm.trans (Reading.region_of_finish? ends)

end Reading

section Address

variable {operation : ApiOperation}

theorem hasLineBreak_append (front back : String) :
    hasLineBreak (front ++ back) = (hasLineBreak front || hasLineBreak back) := by
  simp [hasLineBreak]

theorem any_singleQuotedChar (c : Char) :
    (Text.singleQuotedChar c).any isLineBreak = isLineBreak c := by
  unfold Text.singleQuotedChar
  split <;> simp [isLineBreak]

theorem hasLineBreak_escapeSingleQuoted (text : String) :
    hasLineBreak (Text.escapeSingleQuoted text) = hasLineBreak text := by
  rw [hasLineBreak, Text.escapeSingleQuoted, Text.escapeWith, String.toList_ofList,
    List.any_flatMap]
  exact congrArg text.toList.any (funext any_singleQuotedChar)

theorem chars_of_identifier {name : String} (valid : Identifier.problem? name = none) :
    '\'' ∉ name.toList ∧ hasLineBreak name = false := by
  obtain ⟨c, rest, eq, -, letters, -⟩ := (Identifier.problem?_eq_none_iff name).1 valid
  rw [← eq] at letters
  refine ⟨fun quote => (isIdentifierChar_ne (letters _ quote)).1 rfl, ?_⟩
  exact List.any_eq_false.2 fun d inside => by simp [(isIdentifierChar_ne (letters d inside)).2]

theorem spliceParts_literal_eq_ok {text path : String} {parts : List UriPart}
    (spliced : spliceParts operation (.literal text :: parts) = .ok path) :
    ∃ rest, spliceParts operation parts = .ok rest ∧
      path = Text.escapeSingleQuoted text ++ rest := by
  obtain ⟨rest, later, made⟩ := bind_eq_ok_iff.1 spliced
  exact ⟨rest, later, (Except.ok.inj made).symm⟩

theorem spliceParts_variable_eq_ok {name path : String} {parts : List UriPart}
    (spliced : spliceParts operation (.variable name :: parts) = .ok path) :
    ∃ parameter ∈ operation.parameters, ∃ rest, spliceParts operation parts = .ok rest ∧
      path = "'+" ++ parameter.name ++ "+'" ++ rest := by
  cases found : operation.parameter? name with
  | none => simp [spliceParts, found] at spliced
  | some parameter =>
    simp only [spliceParts, found] at spliced
    obtain ⟨rest, later, made⟩ := bind_eq_ok_iff.1 spliced
    exact ⟨parameter, List.mem_of_find?_eq_some found, rest, later, (Except.ok.inj made).symm⟩

/-- Names have no line ends, so those of a spliced path are in its literal text. -/
theorem hasLineBreak_spliceParts
    (identifiers : ∀ parameter ∈ operation.parameters, Identifier.problem? parameter.name = none)
    {parts : List UriPart} {path : String} (spliced : spliceParts operation parts = .ok path) :
    hasLineBreak path = true ↔ ∃ text, .literal text ∈ parts ∧ hasLineBreak text = true := by
  induction parts generalizing path with
  | nil =>
    cases spliced
    simp [hasLineBreak]
  | cons part parts ih =>
    cases part with
    | literal text =>
      obtain ⟨rest, later, rfl⟩ := spliceParts_literal_eq_ok spliced
      rw [hasLineBreak_append, hasLineBreak_escapeSingleQuoted, Bool.or_eq_true, ih later]
      simp
    | «variable» name =>
      obtain ⟨parameter, member, rest, later, rfl⟩ := spliceParts_variable_eq_ok spliced
      have own := (chars_of_identifier (identifiers parameter member)).2
      have front : hasLineBreak "'+" = false := by decide
      have back : hasLineBreak "+'" = false := by decide
      rw [hasLineBreak_append, hasLineBreak_append, hasLineBreak_append, front, own, back]
      simp [ih later]

theorem any_eraseFirst {needle : List Char} (free : needle.any isLineBreak = false)
    (text : List Char) : (Text.eraseFirst needle text).any isLineBreak = text.any isLineBreak := by
  unfold Text.eraseFirst
  split
  · next before behind cut =>
    rw [← Text.append_of_cutAt? cut, List.any_append, List.any_append, List.any_append, free,
      Bool.or_false]
  · rfl

/-- The address of an operation that passes the checks: it is made of closed literals and names, and
its line ends are those of the text outside of the braces. -/
theorem uriText_lineBreaks (wellFormed : WellFormed operation) :
    ∃ uri, uriText operation = .ok uri ∧
      breaksFrom .code uri.toList = hasLineBreak uri ∧ Region.code.after uri.toList = .code ∧
      (hasLineBreak uri = true ↔
        ∃ text, .literal text ∈ UriTemplate.parts operation.path ∧ hasLineBreak text = true) := by
  obtain ⟨path, whole, splice, ends, -⟩ :=
    read?_spliceParts wellFormed.identifiers (UriTemplate.parts operation.path)
      (declared_of_mem_parts wellFormed.declared) []
  obtain ⟨terms, read, -⟩ := readTerms?_eraseFirst (readTerms?_addressText ends)
  obtain ⟨breaks, code⟩ := breaksFrom_of_readTerms? read
  refine ⟨_, uriText_of_spliceParts splice, breaks, code, ?_⟩
  have front : hasLineBreak "this.baseUri + '" = false := by decide
  have quote : hasLineBreak "'" = false := by decide
  rw [← hasLineBreak_spliceParts wellFormed.identifiers splice]
  rw [hasLineBreak, String.toList_ofList, any_eraseFirst (by decide), ← hasLineBreak,
    hasLineBreak_append, hasLineBreak_append, front, quote, Bool.false_or, Bool.or_false]

end Address

section Statement

variable {operation : ApiOperation}

def requestStatement (sender uri : String) (operation : ApiOperation) : Statement :=
  .returning (some (.call (.field .this "http") sender (.snippet uri :: bodyArgs operation)))

/-- What follows the address among the arguments of a request. -/
def sentText (operation : ApiOperation) : String :=
  if operation.method.hasBody then
    ", " ++ operation.bodyParameter?.elim "null" ApiParameter.name
  else ""

theorem statementText_request (operation : ApiOperation) (sender uri : String)
    (mapper : TypeMapper) (options : Options) :
    statementText mapper options (requestStatement sender uri operation) =
      .ok ("return this.http." ++ sender ++ "(" ++ uri ++ sentText operation ++ ")") := by
  unfold requestStatement sentText bodyArgs
  cases operation.method.hasBody with
  | false =>
    refine congrArg Except.ok (String.toList_inj.1 ?_)
    simp
  | true =>
    cases operation.bodyParameter? <;> refine congrArg Except.ok (String.toList_inj.1 ?_)
    · simp [literalText, Literal.text]
    · simp

theorem not_mem_sender {verb : HttpMethod} {sender : String} (sends : sender? verb = some sender) :
    '\'' ∉ sender.toList := by
  cases verb <;> cases sends <;> decide

theorem not_mem_sentText
    (identifiers : ∀ parameter ∈ operation.parameters,
      Identifier.problem? parameter.name = none) : '\'' ∉ (sentText operation).toList := by
  unfold sentText
  split
  · cases found : operation.bodyParameter? with
    | none => decide
    | some parameter =>
      have name := chars_of_identifier (identifiers parameter (List.mem_of_find?_eq_some found))
      simpa using name.1
  · decide

/-- What stands around an address has no quotes, so the literals of the statement are those of the
address. -/
theorem breaksFrom_request {sender uri : String} (wellFormed : WellFormed operation)
    (sends : sender? operation.method = some sender)
    (code : Region.code.after uri.toList = .code) :
    BreaksLiteral ("return this.http." ++ sender ++ "(" ++ uri ++ sentText operation ++ ")") ↔
      BreaksLiteral uri := by
  have front : '\'' ∉ ("return this.http." ++ sender ++ "(").toList := by
    simpa using not_mem_sender sends
  have back : '\'' ∉ (sentText operation ++ ")").toList := by
    simpa using not_mem_sentText wellFormed.identifiers
  obtain ⟨unbroken, start⟩ := code_of_not_mem front
  rw [BreaksLiteral, BreaksLiteral, String.append_assoc, String.toList_append, String.toList_append,
    breaksFrom_append, breaksFrom_append, Region.after_append, unbroken, start, code,
    (code_of_not_mem back).1, Bool.false_or, Bool.or_false]

theorem FunctionBuilder.body_of_build {builder : FunctionBuilder} {method : Method}
    {sender uri : String} (built : builder.build operation = .ok method)
    (sends : sender? operation.method = some sender) (address : uriText operation = .ok uri) :
    method.body = [requestStatement sender uri operation] := by
  rw [build, requestBody, sends, address] at built
  cases built
  rfl

end Statement

section Text

theorem infix_of_mem_joined {pieces : List (Except EmitError String)} {piece text : String}
    (made : joined pieces = .ok text) (member : .ok piece ∈ pieces) :
    piece.toList <:+: text.toList := by
  induction pieces generalizing text with
  | nil => cases member
  | cons first rest ih =>
    simp only [joined, bind_eq_ok_iff] at made
    obtain ⟨head, rfl, texts, later, made⟩ := made
    cases made
    rcases List.mem_cons.1 member with same | behind
    · cases same
      exact infix_append_left (List.infix_refl _)
    · exact infix_append_right (ih later behind)

def bodyLine (options : Options) (statement : String) : String :=
  (options.sunk 2).margin ++ statement ++ ";\n"

theorem infix_bodyLine {options : Options} {declaration : Declaration} {code : String}
    (plain : declaration.isEnum = false)
    (rendered : declarationText typeMapper options declaration = .ok code)
    {method : Method} (member : .method method ∈ declaration.members) {value : Expression}
    (body : method.body = [.returning (some value)]) {statement : String}
    (text : ∀ options, statementText typeMapper options (.returning (some value)) =
      .ok statement) :
    (bodyLine options statement).toList <:+: code.toList := by
  obtain ⟨front, back, split⟩ := List.append_of_mem member
  obtain ⟨before, after, pieces⟩ := body_inPieces typeMapper options plain front back method .whole
  have whole : declaration = { declaration with
      members := front ++ .method { method with body := method.body } :: back } := by
    rw [← split]
  have piece : statementPiece typeMapper (options.sunk 2) (.returning (some value)) =
      .ok (bodyLine options statement) := by
    rw [statementPiece, text]
    rfl
  have made := (congrArg _ whole).trans (pieces method.body nofun)
  rw [rendered, body] at made
  refine infix_of_mem_joined made.symm ?_
  simp [BlockPlace.depth, piece]

theorem infix_render {code : String} (header : Option String) :
    code.toList <:+: (CodeFile.add { header } code).render.toList :=
  infix_append_right (infix_intercalate List.mem_cons_self)

end Text

/-- The return statement of every method that sends a request breaks a literal exactly where the
path has a line end outside of its braces. -/
theorem returnStatement_breaks_iff (source : Source) (manifest : ApiDescription)
    (valid : validate source manifest = .ok ()) (options : Options) (text : String)
    (shown : preview options manifest = .ok text) :
    ∃ declaration, clientClass manifest = .ok declaration ∧
      ∀ operation ∈ manifest.operations, ∀ sender, sender? operation.method = some sender →
        ∃ method uri statement, .method method ∈ declaration.members ∧
          FunctionBuilder.build ⟨typeMapper, manifest.client.camelCase⟩ operation = .ok method ∧
          uriText operation = .ok uri ∧
          method.body = [requestStatement sender uri operation] ∧
          (∀ options, statementText typeMapper options (requestStatement sender uri operation) =
            .ok statement) ∧
          (bodyLine options statement).toList <:+: text.toList ∧
          (BreaksLiteral statement ↔ ∃ literal,
            .literal literal ∈ UriTemplate.parts operation.path ∧ hasLineBreak literal = true) := by
  have wellFormed := ((validate_eq_ok_iff source manifest).1 valid).2.1
  rcases buildClass_run ⟨typeMapper, manifest.client.camelCase⟩ manifest.client.name
    manifest.operations with ⟨_, error, -, failed⟩ | ⟨-, methods, each, made⟩
  · cases shown.symm.trans (preview_of_unbuilt options failed)
  have shape := preview_of_built options made
  rw [shown] at shape
  cases rendered : declarationText typeMapper options (classWith manifest.client.name methods) with
  | error error =>
    rw [rendered] at shape
    cases shape
  | ok code =>
    rw [rendered] at shape
    obtain rfl := Except.ok.inj shape
    refine ⟨_, made, fun operation listed sender sends => ?_⟩
    have own := wellFormed operation listed
    obtain ⟨method, inside, built⟩ := each.exists_method listed
    obtain ⟨uri, address, breaks, ends, lines⟩ := uriText_lineBreaks own
    have member : Member.method method ∈ (classWith manifest.client.name methods).members :=
      List.mem_cons_of_mem _ (List.mem_map.2 ⟨method, inside, rfl⟩)
    have body := FunctionBuilder.body_of_build built sends address
    have statement := statementText_request operation sender uri typeMapper
    refine ⟨method, uri, _, member, built, address, body, statement, ?_, ?_⟩
    · exact (infix_bodyLine rfl rendered member body statement).trans (infix_render _)
    · rw [breaksFrom_request own sends ends, BreaksLiteral, breaks, lines]

/-- Quotes and backslashes are escaped, and what stands between braces is only a name. -/
def savingOperation : ApiOperation where
  name := "Save"
  method := .put
  path := "it's\\\x7bID:\n\x7d"
  parameters :=
    [{ name := "id", type := .int }, { name := "value", type := .string, fromBody := true }]

theorem returnStatement_breaks_iff_saving :
    ∃ text statement, preview {} ⟨{ name := "Values" }, [savingOperation]⟩ = .ok text ∧
      (bodyLine {} statement).toList <:+: text.toList ∧ ¬BreaksLiteral statement := by
  have valid : validate ⟨"", "api.toml"⟩ ⟨{ name := "Values" }, [savingOperation]⟩ = .ok () := by
    rfl
  have shown : preview {} ⟨{ name := "Values" }, [savingOperation]⟩ = .ok
      ("export class Values \x7b\n" ++
        "    constructor(private baseUri: string, private http: HttpClient) \x7b\x7d\n\n" ++
        "    /**\n     * PUT it's\\\x7bID:\n     * \x7d\n     * @param \x7bnumber\x7d id\n" ++
        "     * @param \x7bstring\x7d value\n     * @return \x7bvoid\x7d\n     */\n" ++
        "    save(id: number, value: string): Promise<void>\x7b\n" ++
        "        return this.http.put(this.baseUri + 'it\\'s\\\\'+id, value);\n" ++
        "    \x7d\n\x7d\n") := by
    decide +kernel
  obtain ⟨_, -, each⟩ := returnStatement_breaks_iff _ _ valid {} _ shown
  obtain ⟨_, _, statement, -, -, -, -, -, inside, breaks⟩ :=
    each savingOperation List.mem_cons_self "put" rfl
  refine ⟨_, statement, shown, inside, breaks.not.2 ?_⟩
  have parts : UriTemplate.parts savingOperation.path = [.literal "it's\\", .variable "ID"] := by
    decide
  rw [parts]
  rintro ⟨literal, member, broken⟩
  obtain rfl : literal = "it's\\" := by simpa using member
  exact absurd broken (by decide)

def brokenDescription : ApiDescription where
  client := { name := "Heroes" }
  operations := [{ name := "List", method := .get, path := "api\nheroes" }]

def brokenStatement : String :=
  "return this.http.get(this.baseUri + 'api\nheroes')"

/-- The path of a description that passes the checks breaks the literal of its address. -/
theorem preview_brokenDescription :
    validate ⟨"", "api.toml"⟩ brokenDescription = .ok () ∧
      preview {} brokenDescription = .ok
        ("export class Heroes \x7b\n" ++
          "    constructor(private baseUri: string, private http: HttpClient) \x7b\x7d\n\n" ++
          "    /**\n     * GET api\n     * heroes\n     * @return \x7bvoid\x7d\n     */\n" ++
          "    list(): Promise<void>\x7b\n" ++ bodyLine {} brokenStatement ++
          "    \x7d\n\x7d\n") ∧
      BreaksLiteral brokenStatement :=
  ⟨by rfl, by decide +kernel, by decide⟩

end ApiClient.Client
