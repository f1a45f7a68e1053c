import ApiClient.Client.Generator
import ApiClient.Manifest.Validate
import ApiClient.Proofs.Client.Class
import ApiClient.Proofs.Layout.Depth
import ApiClient.Proofs.Layout.Pieces
import ApiClient.Proofs.Text.Search

/-! Where the comment of a method ends.

Documentation is written line by line between the opening and the closing of a comment and nothing
in it is escaped. Neither the cuts between lines nor the margins and stars in front of them complete
a closing, so the comment ends where it should unless one of the texts holds a closing itself.
-/

set_option autoImplicit false

namespace ApiClient.TypeScript

open ApiClient.Layout ApiClient.Text

def closing : List Char := ['*', '/']

/-- What follows the first comment of a text. -/
def afterComment? (text : String) : Option (List Char) :=
  (cutAt? ['/', '*', '*'] text.toList).bind fun opened => (cutAt? closing opened.2).map Prod.snd

/-- The first comment of a text ends where the last line does. -/
def IsOneComment (text : String) : Prop :=
  afterComment? text = some ['\n']

instance (text : String) : Decidable (IsOneComment text) :=
  inferInstanceAs (Decidable (afterComment? text = some ['\n']))

def Closes (cs : List Char) : Prop :=
  closing <:+: cs

instance (cs : List Char) : Decidable (Closes cs) :=
  inferInstanceAs (Decidable (closing <:+: cs))

theorem closes_cons {c : Char} {rest : List Char} :
    Closes (c :: rest) ↔ (c = '*' ∧ rest.head? = some '/') ∨ Closes rest := by
  unfold Closes
  rw [List.infix_cons_iff]
  refine or_congr_left ?_
  cases rest <;> simp [closing, List.cons_prefix_cons, eq_comm]

theorem not_closes_nil : ¬Closes [] := by
  simp [Closes, closing]

/-- No closing stretches over any other character, such as the end of a line. -/
theorem closes_append_cons {c : Char} (star : c ≠ '*') (slash : c ≠ '/') {front back : List Char} :
    Closes (front ++ c :: back) ↔ Closes front ∨ Closes back := by
  induction front with
  | nil => simp [closes_cons, not_closes_nil, star]
  | cons d rest ih =>
    have head : (rest ++ c :: back).head? = some '/' ↔ rest.head? = some '/' := by
      cases rest <;> simp [slash]
    rw [List.cons_append, closes_cons, closes_cons, ih, head, or_assoc]

theorem closes_intercalate_feed {pieces : List (List Char)} :
    Closes (['\n'].intercalate pieces) ↔ ∃ piece ∈ pieces, Closes piece := by
  induction pieces with
  | nil => simp [List.intercalate, not_closes_nil]
  | cons piece rest ih =>
    cases rest with
    | nil => simp [List.intercalate]
    | cons next rest =>
      rw [List.intercalate_cons_cons, List.append_assoc, List.singleton_append,
        closes_append_cons (by decide) (by decide), ih]
      simp

theorem closes_append_iff_of_not_mem {front back : List Char} (free : '/' ∉ back) :
    Closes (front ++ back) ↔ Closes front := by
  induction front with
  | nil =>
    refine iff_of_false (fun inside => free ?_) not_closes_nil
    exact inside.subset (by decide)
  | cons c rest ih =>
    have head : (rest ++ back).head? = some '/' ↔ rest.head? = some '/' := by
      cases rest with
      | nil => exact iff_of_false (fun first => free (List.mem_of_mem_head? first)) nofun
      | cons d rest => simp
    rw [List.cons_append, closes_cons, closes_cons, ih, head]

theorem closes_trimEnd {drop : Char → Bool} (stays : drop '/' = false) (cs : List Char) :
    Closes (trimEnd drop cs) ↔ Closes cs := by
  obtain ⟨back, whole, dropped⟩ := exists_trimEnd_append drop cs
  have free : '/' ∉ back := fun slash => Bool.eq_false_iff.1 stays (dropped _ slash)
  conv_rhs => rw [whole]
  exact (closes_append_iff_of_not_mem free).symm

/-- Cutting a text into lines and dropping carriage returns keeps every closing. -/
theorem closes_bareLines {text : String} :
    (∃ line ∈ bareLines text, Closes line.toList) ↔ Closes text.toList := by
  have trimmed (piece : List Char) : Closes (trimEnd (· == '\r') piece) ↔ Closes piece :=
    closes_trimEnd rfl piece
  conv_rhs => rw [← intercalate_split '\n' text.toList, closes_intercalate_feed]
  simp [bareLines, trimmed]

theorem closes_docLine {text : String} :
    Closes (LineBuffer.docLine text).toList ↔ Closes text.toList := by
  unfold LineBuffer.docLine
  split
  · next empty =>
    rw [String.isEmpty_iff.1 empty]
    decide
  · rw [String.toList_append]
    change Closes (' ' :: '*' :: ' ' :: text.toList) ↔ _
    simp [closes_cons]

section Margins

variable {indent : Indent} {levels : Nat}

theorem not_mem_times {c : Char} (solid : isBlank c = false) : c ∉ (indent.times levels).toList :=
  fun member => absurd (blank_of_mem_times member).1 (Bool.eq_false_iff.1 solid)

theorem closes_times_append {line : List Char} :
    Closes ((indent.times levels).toList ++ line) ↔ Closes line :=
  infix_append_iff_of_not_mem (not_mem_times (by decide))

def docRow (margin text : String) : List Char :=
  margin.toList ++ (LineBuffer.docLine text).toList ++ ['\n']

theorem closes_docRows {texts : List String} {back : List Char} :
    Closes (texts.flatMap (docRow (indent.times levels)) ++ back) ↔
      (∃ text ∈ texts, Closes text.toList) ∨ Closes back := by
  induction texts with
  | nil => simp
  | cons text rest ih =>
    have line : (text :: rest).flatMap (docRow (indent.times levels)) ++ back =
        (indent.times levels).toList ++ (LineBuffer.docLine text).toList ++
          '\n' :: (rest.flatMap (docRow (indent.times levels)) ++ back) := by
      simp [docRow]
    rw [line, closes_append_cons (by decide) (by decide), closes_times_append, closes_docLine, ih]
    simp [or_assoc]

end Margins

theorem toList_line (buffer : LineBuffer) (text : String) :
    (buffer.line text).text.toList =
      buffer.text.toList ++ (buffer.margin.toList ++ text.toList ++ ['\n']) := by
  simp [LineBuffer.line, LineBuffer.raw]

theorem toList_docLines (buffer : LineBuffer) (texts : List String) :
    let written := texts.foldl (fun buffer text => buffer.line (LineBuffer.docLine text)) buffer
    written.margin = buffer.margin ∧
      written.text.toList = buffer.text.toList ++ texts.flatMap (docRow buffer.margin) := by
  rw [LineBuffer.docLines_eq]
  have row : docRow buffer.margin = fun text =>
      (buffer.margin ++ LineBuffer.docLine text ++ "\n").toList := by
    funext text
    simp [docRow]
  refine ⟨rfl, ?_⟩
  rw [row]
  simp [LineBuffer.raw, List.flatMap_def, Function.comp_def]

def commentBody (options : Options) (doc : List String) : List Char :=
  '\n' :: ((doc.flatMap bareLines).flatMap (docRow options.margin) ++
    (options.margin.toList ++ [' ']))

theorem bareLines_ne_nil {doc : List String} (filled : doc ≠ []) : doc.flatMap bareLines ≠ [] := by
  obtain ⟨first, rest, rfl⟩ := List.exists_cons_of_ne_nil filled
  have pieces : bareLines first ≠ [] := mt List.map_eq_nil_iff.1 (split_ne_nil '\n' first.toList)
  simp [pieces]

theorem toList_docText (options : Options) {doc : List String} (filled : doc ≠ []) :
    (docText options doc).toList = options.margin.toList ++ ['/', '*', '*'] ++
      (commentBody options doc ++ closing ++ ['\n']) := by
  have lines : (doc.flatMap bareLines).isEmpty = false :=
    List.isEmpty_eq_false_iff.2 (bareLines_ne_nil filled)
  have first := toList_line { indent := options.indent, depth := options.depth } "/**"
  obtain ⟨margin, inner⟩ := toList_docLines
    (LineBuffer.line { indent := options.indent, depth := options.depth } "/**")
    (doc.flatMap bareLines)
  unfold docText LineBuffer.docComment
  rw [lines, if_neg Bool.false_ne_true, toList_line, margin, inner, first]
  have own : (LineBuffer.line { indent := options.indent, depth := options.depth } "/**").margin =
      options.margin := rfl
  have start : LineBuffer.margin { indent := options.indent, depth := options.depth } =
      options.margin := rfl
  rw [own, start]
  simp [commentBody, closing]

theorem closes_commentBody {options : Options} {doc : List String} :
    Closes (commentBody options doc ++ ['*']) ↔ ∃ text ∈ doc, Closes text.toList := by
  -- the star of the closing line has a space in front of it
  have ending : ¬Closes ((options.indent.times options.depth).toList ++ [' ', '*']) := by
    rw [closes_times_append]
    decide
  have whole : commentBody options doc ++ ['*'] = '\n' ::
      ((doc.flatMap bareLines).flatMap (docRow (options.indent.times options.depth)) ++
        ((options.indent.times options.depth).toList ++ [' ', '*'])) := by
    simp [commentBody, Options.margin]
  have feed : ('\n' : Char) ≠ '*' := by decide
  rw [whole, closes_cons, closes_docRows, or_iff_left ending]
  constructor
  · rintro (⟨star, -⟩ | ⟨line, member, inside⟩)
    · exact absurd star feed
    · obtain ⟨text, found, piece⟩ := List.mem_flatMap.1 member
      exact ⟨text, found, closes_bareLines.1 ⟨line, piece, inside⟩⟩
  · rintro ⟨text, found, inside⟩
    obtain ⟨line, piece, inLine⟩ := closes_bareLines.2 inside
    exact .inr ⟨line, List.mem_flatMap.2 ⟨text, found, piece⟩, inLine⟩

/-- The comment of a method ends at its last line unless a text in it holds a closing. -/
theorem docText_isOneComment_iff (options : Options) {doc : List String} (filled : doc ≠ []) :
    IsOneComment (docText options doc) ↔ ∀ text ∈ doc, ¬Closes text.toList := by
  have opening : cutAt? ['/', '*', '*'] (docText options doc).toList =
      some (options.margin.toList, commentBody options doc ++ closing ++ ['\n']) := by
    refine (cutAt?_eq_some_iff (by decide)).2 ⟨toList_docText options filled, ?_⟩
    rw [Options.margin, infix_append_iff_of_not_mem (not_mem_times (by decide))]
    decide
  -- the rest after the first closing is the last line feed only if the body is what comes before
  have after : IsOneComment (docText options doc) ↔
      cutAt? closing (commentBody options doc ++ closing ++ ['\n']) =
        some (commentBody options doc, ['\n']) := by
    unfold IsOneComment afterComment?
    rw [opening, Option.bind_some]
    constructor
    · intro found
      obtain ⟨⟨before, last⟩, cut, rfl⟩ := Option.map_eq_some_iff.1 found
      have whole := append_of_cutAt? cut
      rw [List.append_assoc, List.append_assoc] at whole
      rw [List.append_cancel_right whole] at cut
      exact cut
    · intro cut
      rw [cut]
      rfl
  have star : closing.dropLast = ['*'] := rfl
  rw [after, cutAt?_eq_some_iff (by decide), star, ← Closes, closes_commentBody]
  simp

end ApiClient.TypeScript

namespace ApiClient.Client

open ApiClient.Layout ApiClient.Manifest ApiClient.Text ApiClient.TypeScript

section Documentation

variable (builder : FunctionBuilder) (operation : ApiOperation)

/-- The texts of a parameter that its line shows. -/
def paramTexts (parameter : ApiParameter) : List String :=
  builder.mapper.type parameter.type :: parameter.name :: parameter.documentation.toList

/-- The texts of an operation that its documentation is made of. -/
def docTexts : List String :=
  operation.documentation.toList ++ [operation.path] ++
  operation.parameters.flatMap (paramTexts builder) ++
  ((operation.response.map builder.mapper.type).toList ++ operation.responseDocumentation.toList)

theorem closes_getD {doc : Option String} :
    Closes (doc.getD "").toList ↔ ∃ text ∈ doc.toList, Closes text.toList := by
  cases doc <;> simp [not_closes_nil]

theorem closes_trimBlankEnd {text : String} :
    Closes (trimBlankEnd text).toList ↔ Closes text.toList := by
  rw [trimBlankEnd, String.toList_ofList]
  exact closes_trimEnd (by decide) text.toList

/-- A word, a type in braces and what follows them: only the last two can hold a closing. -/
theorem closes_tagged {tag type rest : List Char} (free : ¬Closes tag) :
    Closes (tag ++ '\x7b' :: (type ++ '\x7d' :: ' ' :: rest)) ↔ Closes type ∨ Closes rest := by
  have space : Closes (' ' :: rest) ↔ Closes rest := by simp [closes_cons]
  rw [closes_append_cons (by decide) (by decide), or_iff_right free,
    closes_append_cons (by decide) (by decide), space]

theorem closes_paramLine {parameter : ApiParameter} :
    Closes (builder.paramLine parameter).toList ↔
      ∃ text ∈ paramTexts builder parameter, Closes text.toList := by
  have line : ("@param \x7b" ++ builder.mapper.type parameter.type ++ "\x7d " ++ parameter.name ++
      " " ++ parameter.documentation.getD "").toList =
        "@param ".toList ++ '\x7b' :: ((builder.mapper.type parameter.type).toList ++
          '\x7d' :: ' ' ::
            (parameter.name.toList ++ ' ' :: (parameter.documentation.getD "").toList)) := by
    simp
  rw [FunctionBuilder.paramLine, closes_trimBlankEnd, line, closes_tagged (by decide),
    closes_append_cons (by decide) (by decide), closes_getD]
  simp [paramTexts]

theorem closes_returnLine :
    Closes (builder.returnLine operation).toList ↔
      ∃ text ∈ (operation.response.map builder.mapper.type).toList ++
        operation.responseDocumentation.toList, Closes text.toList := by
  have line (type : String) :
      ("@return \x7b" ++ type ++ "\x7d " ++ operation.responseDocumentation.getD "").toList =
        "@return ".toList ++ '\x7b' :: (type.toList ++ '\x7d' :: ' ' ::
          (operation.responseDocumentation.getD "").toList) := by
    simp
  rw [FunctionBuilder.returnLine, closes_trimBlankEnd, line, closes_tagged (by decide), closes_getD]
  cases operation.response with
  | none =>
    have void : ¬Closes "void".toList := by decide
    rw [or_iff_right void]
    simp
  | some response => simp

theorem closes_docLines :
    (∃ line ∈ builder.docLines operation, Closes line.toList) ↔
      ∃ text ∈ docTexts builder operation, Closes text.toList := by
  have verb : ¬Closes operation.method.name.toList := by
    cases operation.method <;> decide
  have path : Closes (operation.method.name ++ " " ++ operation.path).toList ↔
      Closes operation.path.toList := by
    have line : (operation.method.name ++ " " ++ operation.path).toList =
        operation.method.name.toList ++ ' ' :: operation.path.toList := by
      simp
    rw [line, closes_append_cons (by decide) (by decide), or_iff_right verb]
  have params : (∃ line ∈ operation.parameters.map builder.paramLine, Closes line.toList) ↔
      ∃ text ∈ operation.parameters.flatMap (paramTexts builder), Closes text.toList := by
    simp only [List.mem_map, List.mem_flatMap, exists_exists_and_eq_and, closes_paramLine]
    constructor
    · rintro ⟨parameter, found, text, part, inside⟩
      exact ⟨text, ⟨parameter, found, part⟩, inside⟩
    · rintro ⟨text, ⟨parameter, found, part⟩, inside⟩
      exact ⟨parameter, found, text, part, inside⟩
  simp only [FunctionBuilder.docLines, docTexts, List.mem_append, or_and_right, exists_or,
    List.mem_singleton, exists_eq_left, path, params]
  rw [closes_returnLine]
  simp only [List.mem_append, or_and_right, exists_or]

end Documentation

theorem docLines_of_build {builder : FunctionBuilder} {operation : ApiOperation}
    {method : Tree.Method} (built : builder.build operation = .ok method) :
    method.doc = builder.docLines operation := by
  rw [FunctionBuilder.build] at built
  cases body : requestBody operation with
  | error cause =>
    rw [body] at built
    cases built
  | ok statements =>
    rw [body] at built
    cases built
    rfl

theorem docLines_ne_nil (builder : FunctionBuilder) (operation : ApiOperation) :
    builder.docLines operation ≠ [] :=
  List.append_ne_nil_of_right_ne_nil _ (List.cons_ne_nil _ _)

/-- Documentation is one comment unless one of its texts closes it. The documentation of a client
method is made of texts of its operation, and nothing that is put around them closes it. -/
theorem isOneComment_docText_iff (options : Options) :
    (∀ doc, doc ≠ [] →
      (IsOneComment (docText options doc) ↔ ∀ text ∈ doc, ¬Closes text.toList)) ∧
    ∀ manifest declaration, clientClass manifest = .ok declaration →
      ∀ method, .method method ∈ declaration.members →
        ∃ operation ∈ manifest.operations,
          FunctionBuilder.build ⟨typeMapper, manifest.client.camelCase⟩ operation = .ok method ∧
          (IsOneComment (docText options method.doc) ↔
            ∀ text ∈ docTexts ⟨typeMapper, manifest.client.camelCase⟩ operation,
              ¬Closes text.toList) := by
  refine ⟨fun doc filled => docText_isOneComment_iff options filled, ?_⟩
  intro manifest declaration built method inside
  rcases buildClass_run _ manifest.client.name manifest.operations with
    ⟨_, _, -, failed⟩ | ⟨-, methods, each, made⟩
  · cases failed.symm.trans built
  · cases made.symm.trans built
    have listed : method ∈ methods := by simpa [classWith] using inside
    obtain ⟨operation, found, origin⟩ := each.exists_of_mem listed
    refine ⟨operation, found, origin, ?_⟩
    have texts := closes_docLines ⟨typeMapper, manifest.client.camelCase⟩ operation
    rw [docLines_of_build origin, docText_isOneComment_iff options (docLines_ne_nil _ operation)]
    simpa only [not_exists, not_and] using not_congr texts

/-- A segment of a path that is a star, between two slashes. -/
def starDescription : ApiDescription where
  client := { name := "Files" }
  operations := [{ name := "List", method := .get, path := "files/*/versions" }]

theorem isOneComment_docText_iff_starPath :
    ¬IsOneComment (docText { depth := 1 } ["GET files/*/versions"]) ∧
      ∃ declaration, clientClass starDescription = .ok declaration ∧
        ∀ method, .method method ∈ declaration.members →
          ¬IsOneComment (docText { depth := 1 } method.doc) := by
  obtain ⟨documented, clients⟩ := isOneComment_docText_iff { depth := 1 }
  constructor
  · rw [documented _ (by decide)]
    decide
  · refine ⟨_, rfl, fun method inside => ?_⟩
    obtain ⟨operation, listed, -, texts⟩ := clients starDescription _ rfl method inside
    obtain rfl := List.mem_singleton.1 listed
    rw [texts]
    decide

/-- The path ends the comment in the client of a description that passes the checks. -/
theorem preview_starDescription :
    validate ⟨"", "api.toml"⟩ starDescription = .ok () ∧
      preview {} starDescription = .ok
        ("export class Files \x7b\n" ++
          "    constructor(private baseUri: string, private http: HttpClient) \x7b\x7d\n\n" ++
          "    /**\n     * GET files/*/versions\n     * @return \x7bvoid\x7d\n     */\n" ++
          "    list(): Promise<void>\x7b\n" ++
          "        return this.http.get(this.baseUri + 'files/*/versions');\n    \x7d\n\x7d\n") ∧
      ¬IsOneComment
        "    /**\n     * GET files/*/versions\n     * @return \x7bvoid\x7d\n     */\n" :=
  ⟨by rfl, by decide +kernel, by decide⟩

end ApiClient.Client
