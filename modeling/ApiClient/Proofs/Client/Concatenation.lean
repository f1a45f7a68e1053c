import Mathlib.Data.Option.Basic
import ApiClient.Client.Function
import ApiClient.Manifest.Identifier

/-! Reading an address: a base and the terms that are added to it.

A term is a literal between single quotes, in which a backslash stands before backslashes and
single quotes, or a name. The reader takes one character at a time and holds the terms read so
far, so a text is read by reading its parts one after the other.
-/

set_option autoImplicit false

namespace ApiClient.Client

open ApiClient.Manifest

inductive Term where
  | literal (text : String)
  | reference (name : String)
  deriving DecidableEq

def Term.value (values : String → String) : Term → String
  | .literal text => text
  | .reference name => values name

/-- The value of a concatenation, given the base and the values of names. -/
def sumValue (base : String) (values : String → String) (terms : List Term) : String :=
  base ++ String.join (terms.map (Term.value values))

/-- What may come next: an operator, an operand, or the rest of an operand. -/
inductive Mode where
  | between
  | operand
  | quoted (text : List Char)
  | escaped (text : List Char)
  | word (name : List Char)
  deriving DecidableEq

structure Reading where
  terms : List Term := []
  mode : Mode := .between
  deriving DecidableEq

namespace Reading

def isName (name : List Char) : Bool :=
  Identifier.problem? (String.ofList name) == none

def operator? (terms : List Term) (c : Char) : Option Reading :=
  if c = ' ' then some ⟨terms, .between⟩
  else if c = '+' then some ⟨terms, .operand⟩
  else none

def step (reading : Reading) (c : Char) : Option Reading :=
  match reading.mode with
  | .between => operator? reading.terms c
  | .operand =>
    if c = ' ' then some reading
    else if c = '\'' then some ⟨reading.terms, .quoted []⟩
    else if Identifier.isIdentifierChar c then some ⟨reading.terms, .word [c]⟩
    else none
  | .quoted text =>
    if c = '\'' then some ⟨reading.terms ++ [.literal (String.ofList text)], .between⟩
    else if c = '\\' then some ⟨reading.terms, .escaped text⟩
    else some ⟨reading.terms, .quoted (text ++ [c])⟩
  | .escaped text =>
    if c = '\'' ∨ c = '\\' then some ⟨reading.terms, .quoted (text ++ [c])⟩ else none
  | .word name =>
    if Identifier.isIdentifierChar c then some ⟨reading.terms, .word (name ++ [c])⟩
    else if isName name then operator? (reading.terms ++ [.reference (String.ofList name)]) c
    else none

def run (reading : Reading) (cs : List Char) : Option Reading :=
  cs.foldlM step reading

def finish? (reading : Reading) : Option (List Term) :=
  match reading.mode with
  | .between => some reading.terms
  | .word name =>
    if isName name then some (reading.terms ++ [.reference (String.ofList name)]) else none
  | _ => none

def read? (reading : Reading) (cs : List Char) : Option (List Term) :=
  reading.run cs >>= finish?

end Reading

def baseText : List Char := "this.baseUri".toList

/-- The terms that a text adds to the base, if all of the text is such a concatenation. -/
def readTerms? (text : String) : Option (List Term) :=
  if baseText.isPrefixOf text.toList then
    Reading.read? {} (text.toList.drop baseText.length)
  else none

namespace Reading

variable {reading : Reading}

@[simp] theorem run_nil : reading.run [] = some reading := rfl

@[simp] theorem run_cons (c : Char) (cs : List Char) :
    reading.run (c :: cs) = reading.step c >>= fun next => next.run cs := rfl

theorem run_append (front back : List Char) :
    reading.run (front ++ back) = reading.run front >>= fun next => next.run back :=
  List.foldlM_append

def after (front : List Term) (reading : Reading) : Reading :=
  { reading with terms := front ++ reading.terms }

theorem operator?_append (front terms : List Term) (c : Char) :
    operator? (front ++ terms) c = (operator? terms c).map (after front) := by
  unfold operator?
  split <;> [rfl; split <;> rfl]

theorem step_after (front : List Term) (c : Char) :
    (reading.after front).step c = (reading.step c).map (after front) := by
  obtain ⟨terms, mode⟩ := reading
  cases mode <;> simp only [after, step, List.append_assoc, operator?_append] <;>
    repeat' split
  all_goals rfl

theorem run_after (front : List Term) (cs : List Char) :
    (reading.after front).run cs = (reading.run cs).map (after front) := by
  induction cs generalizing reading with
  | nil => rfl
  | cons c cs ih =>
    rw [run_cons, run_cons, step_after]
    cases reading.step c with
    | none => rfl
    | some next => exact ih

theorem finish?_after (front : List Term) :
    (reading.after front).finish? = reading.finish?.map (front ++ ·) := by
  obtain ⟨terms, mode⟩ := reading
  cases mode <;> simp only [after, finish?, List.append_assoc] <;> repeat' split
  all_goals rfl

theorem read?_append (front back : List Char) :
    reading.read? (front ++ back) = reading.run front >>= fun next => next.read? back := by
  rw [read?, run_append, bind_assoc]
  rfl

theorem read?_after (front : List Term) (cs : List Char) :
    (reading.after front).read? cs = (reading.read? cs).map (front ++ ·) := by
  rw [read?, run_after, read?]
  cases reading.run cs with
  | none => rfl
  | some next => exact finish?_after front

theorem read?_between (terms : List Term) (cs : List Char) :
    read? ⟨terms, .between⟩ cs = (read? {} cs).map (terms ++ ·) := by
  rw [← read?_after]
  simp [after]

theorem run_quoted (terms : List Term) (text read rest : List Char) :
    run ⟨terms, .quoted read⟩ (text.flatMap Text.singleQuotedChar ++ rest) =
      run ⟨terms, .quoted (read ++ text)⟩ rest := by
  induction text generalizing read with
  | nil => simp
  | cons c text ih =>
    rw [List.flatMap_cons, List.append_assoc]
    have next : run ⟨terms, .quoted read⟩ (Text.singleQuotedChar c ++
        (text.flatMap Text.singleQuotedChar ++ rest)) =
        run ⟨terms, .quoted (read ++ [c])⟩ (text.flatMap Text.singleQuotedChar ++ rest) := by
      by_cases slash : c = '\\'
      · subst slash
        simp [Text.singleQuotedChar, step]
      by_cases quote : c = '\''
      · subst quote
        simp [Text.singleQuotedChar, step]
      simp [Text.singleQuotedChar, step, slash, quote]
    rw [next, ih, List.append_assoc, List.singleton_append]

theorem run_word (terms : List Term) (name read : List Char)
    (letters : ∀ c ∈ name, Identifier.isIdentifierChar c = true) :
    run ⟨terms, .word read⟩ name = some ⟨terms, .word (read ++ name)⟩ := by
  induction name generalizing read with
  | nil => simp
  | cons c name ih =>
    have first : step ⟨terms, .word read⟩ c = some ⟨terms, .word (read ++ [c])⟩ := by
      simp [step, letters c (by simp)]
    rw [run_cons, first, Option.bind_eq_bind, Option.bind_some,
      ih _ fun d member => letters d (by simp [member])]
    simp

/-- What follows an operand is an operator or the end, so it also ends a name. -/
theorem read?_word {name : List Char} (valid : isName name = true) (terms : List Term)
    {cs : List Char} {rest : List Term} (read : read? {} cs = some rest) :
    read? ⟨terms, .word name⟩ cs = some (terms ++ .reference (String.ofList name) :: rest) := by
  cases cs with
  | nil =>
    obtain rfl : [] = rest := Option.some.inj read
    simp [read?, finish?, valid]
  | cons c cs =>
    have operator : c = ' ' ∨ c = '+' := by
      by_contra other
      obtain ⟨space, plus⟩ := not_or.1 other
      simp [read?, step, operator?, space, plus] at read
    have ends : Identifier.isIdentifierChar c = false := by
      rcases operator with rfl | rfl <;> decide
    have same : step ⟨terms, .word name⟩ c =
        step ⟨terms ++ [.reference (String.ofList name)], .between⟩ c := by
      simp [step, ends, valid]
    have shifted := read?_between (terms ++ [.reference (String.ofList name)]) (c :: cs)
    rw [read, read?, run_cons, ← same, ← run_cons, ← read?] at shifted
    simpa using shifted

theorem isIdentifierChar_plus : Identifier.isIdentifierChar '+' = false := by decide

/-- In a text that reads as a concatenation an operator and two quotes are an empty literal: inside
a literal the first of the quotes would close it, and the second could not follow. -/
theorem read?_erase_emptyLiteral {before behind : List Char} {terms : List Term}
    (read : reading.read? (before ++ '+' :: '\'' :: '\'' :: behind) = some terms) :
    ∃ front back, terms = front ++ .literal "" :: back ∧
      reading.read? (before ++ behind) = some (front ++ back) := by
  rw [read?_append] at read ⊢
  obtain ⟨⟨held, mode⟩, start, read⟩ := Option.bind_eq_some_iff.1 read
  rw [start, Option.bind_eq_bind, Option.bind_some]
  -- the characters of the erased text, one after the other
  have pass : ∀ front : List Term, step ⟨held, mode⟩ '+' = some ⟨front, .operand⟩ →
      ∃ back, read? {} behind = some back ∧ terms = front ++ .literal "" :: back := by
    intro front plus
    rw [read?, run_cons, plus] at read
    change read? ⟨front ++ [.literal ""], .between⟩ behind = some terms at read
    rw [read?_between, Option.map_eq_some_iff] at read
    obtain ⟨back, rest, rfl⟩ := read
    exact ⟨back, rest, by simp⟩
  cases mode with
  | between =>
    obtain ⟨back, rest, rfl⟩ := pass held rfl
    exact ⟨held, back, rfl, by rw [read?_between, rest, Option.map_some]⟩
  | word name =>
    have valid : isName name = true := by
      by_contra invalid
      simp [read?, step, isIdentifierChar_plus, invalid] at read
    obtain ⟨back, rest, rfl⟩ := pass (held ++ [.reference (String.ofList name)]) (by
      simp [step, isIdentifierChar_plus, valid, operator?])
    exact ⟨_, back, rfl, by rw [read?_word valid held rest]; simp⟩
  | operand => simp [read?, step, isIdentifierChar_plus] at read
  | quoted text => simp [read?, step, operator?] at read
  | escaped text => simp [read?, step] at read

end Reading

theorem readTerms?_eq_some_iff {text : String} {terms : List Term} :
    readTerms? text = some terms ↔
      ∃ rest, text.toList = baseText ++ rest ∧ Reading.read? {} rest = some terms := by
  unfold readTerms?
  split
  · next starts =>
    obtain ⟨rest, eq⟩ := List.isPrefixOf_iff_prefix.1 starts
    simp [← eq]
  · next starts =>
    simp only [reduceCtorEq, false_iff, not_exists, not_and]
    intro rest eq
    exact absurd (List.isPrefixOf_iff_prefix.2 ⟨rest, eq.symm⟩) starts

theorem plus_not_mem_baseText : '+' ∉ baseText := by decide

theorem readTerms?_eraseFirst {text : String} {whole : List Term}
    (read : readTerms? text = some whole) :
    ∃ terms, readTerms? (String.ofList (Text.eraseFirst emptyLiteral text.toList)) = some terms ∧
      (terms = whole ∨
        ∃ front back, whole = front ++ .literal "" :: back ∧ terms = front ++ back) := by
  unfold Text.eraseFirst
  split
  · next before behind cut =>
    obtain ⟨rest, start, read⟩ := readTerms?_eq_some_iff.1 read
    have parts : baseText ++ rest = before ++ ('+' :: '\'' :: '\'' :: behind) := by
      rw [← start, ← Text.append_of_cutAt? cut]
      simp [emptyLiteral]
    -- the base has no operator, so it stands before the erased characters
    obtain ⟨inner, rfl, rfl⟩ : ∃ inner, before = baseText ++ inner ∧
        rest = inner ++ '+' :: '\'' :: '\'' :: behind := by
      rcases List.append_eq_append_iff.1 parts with ⟨inner, front, back⟩ | ⟨inner, front, back⟩
      · exact ⟨inner, front, back⟩
      · cases inner with
        | nil => exact ⟨[], by simpa using front.symm, by simpa using back.symm⟩
        | cons c inner =>
          obtain ⟨rfl, -⟩ := List.cons.inj back
          exact absurd (by simp [front]) plus_not_mem_baseText
    obtain ⟨front, back, rfl, erased⟩ := Reading.read?_erase_emptyLiteral read
    exact ⟨front ++ back, readTerms?_eq_some_iff.2 ⟨inner ++ behind, by simp, erased⟩,
      .inr ⟨front, back, rfl, rfl⟩⟩
  · exact ⟨whole, by simpa using read, .inl rfl⟩

end ApiClient.Client
