import ApiClient.Layout.CodeFile

/-! The header of a file of code, read line by line.

The header is cut at line feeds and each piece becomes a comment. Source code has more ends of lines
than that: a carriage return ends one with or without a line feed behind it, and so do the line and
the paragraph separator. What stands behind such an end in a piece of the header begins a line
without a comment mark.
-/

set_option autoImplicit false

namespace ApiClient.Layout

open ApiClient.Text

def isLineEnd (c : Char) : Bool :=
  c == '\n' || c == '\r' || c == '\u2028' || c == '\u2029'

/-- The lines of source code. A carriage return and a line feed behind it are one end; what follows
the last end is a line, too. -/
def sourceLines : List Char → List (List Char)
  | [] => [[]]
  | '\r' :: '\n' :: rest => [] :: sourceLines rest
  | c :: rest =>
    if isLineEnd c then [] :: sourceLines rest else (sourceLines rest).modifyHead (c :: ·)

/-- A line that holds no code: it is empty or a comment from its first character on. -/
def IsCommentLine (line : List Char) : Prop :=
  line = [] ∨ ['/', '/'] <+: line

instance (line : List Char) : Decidable (IsCommentLine line) :=
  inferInstanceAs (Decidable (line = [] ∨ ['/', '/'] <+: line))

/-- `lines` are the lines of `front`, whatever stands behind it. -/
def EndsLines (front : List Char) (lines : List (List Char)) : Prop :=
  ∀ back, sourceLines (front ++ back) = lines ++ sourceLines back

theorem EndsLines.append {front back : List Char} {lines more : List (List Char)}
    (first : EndsLines front lines) (second : EndsLines back more) :
    EndsLines (front ++ back) (lines ++ more) := by
  intro rest
  rw [List.append_assoc, first, second, List.append_assoc]

theorem sourceLines_of_inside {c : Char} (inside : isLineEnd c = false) (rest : List Char) :
    sourceLines (c :: rest) = (sourceLines rest).modifyHead (c :: ·) := by
  rw [sourceLines, inside, if_neg Bool.false_ne_true]
  rintro _ rfl
  contradiction

theorem sourceLines_of_end {c : Char} (ends : isLineEnd c = true) {rest : List Char}
    (alone : ∀ back, c = '\r' → rest ≠ '\n' :: back) :
    sourceLines (c :: rest) = [] :: sourceLines rest := by
  rw [sourceLines, if_pos ends]
  exact fun back carriage same => alone back carriage same

/-- A text and a line feed end lines: those of the text, but for an empty one where a carriage
return and the line feed are one end. -/
theorem exists_endsLines (text : List Char) :
    ∃ first lines, EndsLines (text ++ ['\n']) (first :: lines) ∧
      (sourceLines text = first :: lines ∨ sourceLines text = first :: lines ++ [[]]) := by
  induction text using sourceLines.induct with
  | case1 => exact ⟨[], [], fun _ => rfl, .inl rfl⟩
  | case2 rest ih =>
    obtain ⟨first, lines, ends, same⟩ := ih
    refine ⟨[], first :: lines, fun back => congrArg ([] :: ·) (ends back), ?_⟩
    rw [sourceLines]
    exact same.imp (congrArg ([] :: ·)) (congrArg ([] :: ·))
  | case3 c rest notBoth terminator ih =>
    by_cases last : c = '\r' ∧ rest = []
    · obtain ⟨rfl, rfl⟩ := last
      exact ⟨[], [], fun _ => rfl, .inr rfl⟩
    · obtain ⟨first, lines, ends, same⟩ := ih
      refine ⟨[], first :: lines, fun back => ?_, ?_⟩
      · have alone : ∀ after, c = '\r' → rest ++ ['\n'] ++ back ≠ '\n' :: after := by
          intro after carriage
          cases rest with
          | nil => exact absurd ⟨carriage, rfl⟩ last
          | cons d rest =>
            rintro same
            obtain rfl : d = '\n' := (List.cons.inj same).1
            exact notBoth rest carriage rfl
        change sourceLines (c :: (rest ++ ['\n'] ++ back)) = _
        rw [sourceLines_of_end terminator alone, ends]
        rfl
      · rw [sourceLines_of_end terminator notBoth]
        exact same.imp (congrArg ([] :: ·)) (congrArg ([] :: ·))
  | case4 c rest notBoth inside ih =>
    have inside : isLineEnd c = false := Bool.eq_false_iff.2 inside
    obtain ⟨first, lines, ends, same⟩ := ih
    refine ⟨c :: first, lines, fun back => ?_, ?_⟩
    · change sourceLines (c :: (rest ++ ['\n'] ++ back)) = _
      rw [sourceLines_of_inside inside, ends]
      rfl
    · rw [sourceLines_of_inside inside]
      exact same.imp (congrArg (List.modifyHead _)) (congrArg (List.modifyHead _))

section Comments

def commentRow (text : String) : List Char :=
  ['/', '/', ' '] ++ (text.toList ++ ['\n'])

/-- The lines that source code sees in a text behind the first one. -/
def furtherLines (text : String) : List (List Char) :=
  (sourceLines text.toList).tail

theorem commentRow_endsLines (text : String) :
    ∃ lines, EndsLines (commentRow text) lines ∧
      ((∀ line ∈ lines, IsCommentLine line) ↔ ∀ line ∈ furtherLines text, IsCommentLine line) := by
  obtain ⟨first, lines, ends, same⟩ := exists_endsLines text.toList
  refine ⟨(['/', '/', ' '] ++ first) :: lines, fun back => ?_, ?_⟩
  · change sourceLines ('/' :: '/' :: ' ' :: (text.toList ++ ['\n'] ++ back)) = _
    rw [sourceLines_of_inside rfl, sourceLines_of_inside rfl, sourceLines_of_inside rfl, ends]
    rfl
  · have marked : IsCommentLine (['/', '/', ' '] ++ first) := .inr ⟨' ' :: first, rfl⟩
    have empty : IsCommentLine [] := .inl rfl
    rw [List.forall_mem_cons, and_iff_right marked, furtherLines]
    rcases same with same | same
    · rw [same, List.tail_cons]
    · rw [same, List.cons_append, List.tail_cons, List.forall_mem_append,
        List.forall_mem_singleton, and_iff_left empty]

theorem commentRows_endsLines (texts : List String) :
    ∃ lines, EndsLines (texts.flatMap commentRow) lines ∧
      ((∀ line ∈ lines, IsCommentLine line) ↔
        ∀ text ∈ texts, ∀ line ∈ furtherLines text, IsCommentLine line) := by
  induction texts with
  | nil => exact ⟨[], fun _ => rfl, by simp⟩
  | cons text rest ih =>
    obtain ⟨first, ends, free⟩ := commentRow_endsLines text
    obtain ⟨others, end_, rests⟩ := ih
    refine ⟨first ++ others, ends.append end_, ?_⟩
    rw [List.forall_mem_append, List.forall_mem_cons, free, rests]

theorem toList_comments (buffer : LineBuffer) (surface : buffer.depth = 0) (texts : List String) :
    (texts.foldl LineBuffer.comment buffer).text.toList =
      buffer.text.toList ++ texts.flatMap commentRow := by
  induction texts generalizing buffer with
  | nil => simp
  | cons text rest ih =>
    rw [List.foldl_cons, ih (buffer.comment text) surface]
    simp [LineBuffer.comment, LineBuffer.line, LineBuffer.raw, LineBuffer.margin, Indent.times,
      surface, commentRow]

end Comments

/-- The lines of a header are comments exactly where each line that begins inside a piece of it is
empty or a comment already. What follows the header are the added texts with a line feed between
two of them. -/
theorem header_isComment_iff (header : String) (codes : List String) :
    ∃ part lines,
      (CodeFile.addAll { header := some header } codes).render =
        part ++ "\n".intercalate codes ∧
      EndsLines part.toList lines ∧
      ((∀ line ∈ lines, IsCommentLine line) ↔
        ∀ text ∈ Text.lines header, ∀ line ∈ furtherLines text, IsCommentLine line) := by
  obtain ⟨lines, ends, free⟩ := commentRows_endsLines (Text.lines header)
  have text : (CodeFile.headerText (some header)).toList = (Text.lines header).flatMap commentRow :=
    toList_comments {} rfl _
  cases codes with
  | nil =>
    refine ⟨CodeFile.headerText (some header), lines, ?_, text ▸ ends, free⟩
    simp [CodeFile.addAll, CodeFile.render]
  | cons code rest =>
    have blank : EndsLines ['\n'] [[]] := fun _ => rfl
    have whole : (CodeFile.headerText (some header) ++ "\n").toList =
        (Text.lines header).flatMap commentRow ++ ['\n'] := by
      rw [String.toList_append, text]
      rfl
    refine ⟨CodeFile.headerText (some header) ++ "\n", lines ++ [[]], rfl,
      whole ▸ ends.append blank, ?_⟩
    rw [List.forall_mem_append, List.forall_mem_singleton, and_iff_left (.inl rfl), free]

def returningHeader : String :=
  "Generated\rdebugger;"

theorem returningHeader_isCode :
    (CodeFile.addAll { header := some returningHeader } []).render = "// Generated\rdebugger;\n" ∧
      "debugger;".toList ∈ sourceLines "// Generated\rdebugger;\n".toList ∧
      ¬IsCommentLine "debugger;".toList := by
  decide +kernel

end ApiClient.Layout
