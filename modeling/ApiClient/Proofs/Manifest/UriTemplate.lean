import Mathlib.Data.List.DropRight
import Mathlib.Data.List.Infix
import ApiClient.Manifest.UriTemplate

/-! The parts of a template are the one way to write it down.

`Written` says how parts stand in a text and `Shaped` which lists of parts can be read back: literal
text is not cut in two, and an opening brace in it is never followed by a closing one. Every text is
written by its parts, they are shaped, and no other shaped list writes it. So parts with plain names
are read back from their printed form.
-/

set_option autoImplicit false

namespace ApiClient.Manifest.UriTemplate

/-- A raw text between braces has a name: what comes before the first colon or equals sign, without
the question marks at its end. -/
def IsNameOf (name : String) (raw : List Char) : Prop :=
  ∃ marks rest, raw = name.toList ++ marks ++ rest ∧
    (∀ c ∈ name.toList ++ marks, c ≠ ':' ∧ c ≠ '=') ∧
    (∀ c ∈ rest.head?, c = ':' ∨ c = '=') ∧
    (∀ c ∈ marks, c = '?') ∧ name.toList.getLast? ≠ some '?'

/-- The texts that parts stand for: literal text as it is, and between braces any text without a
closing brace that has the name of the variable. -/
inductive Written : List UriPart → List Char → Prop where
  | nil : Written [] []
  | literal {text : String} {parts : List UriPart} {rest : List Char} :
    Written parts rest → Written (.literal text :: parts) (text.toList ++ rest)
  | braced {name : String} {raw : List Char} {parts : List UriPart} {rest : List Char} :
    '\x7d' ∉ raw → IsNameOf name raw → Written parts rest →
    Written (.variable name :: parts) ('\x7b' :: raw ++ '\x7d' :: rest)

/-- Parts as they are read: no piece of literal text is empty, none stands next to another, and no
opening brace in it has a closing brace behind it. -/
structure Shaped (parts : List UriPart) : Prop where
  filled : .literal "" ∉ parts
  apart : ∀ first second, ¬[.literal first, .literal second] <:+: parts
  unopened : ∀ text name, [.literal text, .variable name].Sublist parts → '\x7b' ∉ text.toList
  unclosed : ∀ text, parts.getLast? = some (.literal text) →
    ¬['\x7b', '\x7d'].Sublist text.toList

section Names

variable {name : String} {raw : List Char}

/-- What `variableName` takes: the characters before the first colon or equals sign. -/
def beforeStop (raw : List Char) : List Char :=
  raw.takeWhile fun c => c != ':' && c != '='

/-- `List.rdropWhile` is the longest ending that can be taken off, as `Text.trimEnd` is. -/
theorem toList_variableName (raw : List Char) :
    (variableName raw).toList = (beforeStop raw).rdropWhile (· == '?') :=
  String.toList_ofList

theorem beforeStop_append {front rest : List Char} (plain : ∀ c ∈ front, c ≠ ':' ∧ c ≠ '=')
    (stop : ∀ c ∈ rest.head?, c = ':' ∨ c = '=') : beforeStop (front ++ rest) = front := by
  have stopped : beforeStop rest = [] := by
    cases rest with
    | nil => rfl
    | cons c rest =>
      refine List.takeWhile_cons_of_neg ?_
      rcases stop c rfl with rfl | rfl <;> decide
  have taken : ∀ c ∈ front, (c != ':' && c != '=') = true := fun c member => by
    simpa using plain c member
  calc
    beforeStop (front ++ rest) = front ++ beforeStop rest := List.takeWhile_append_of_pos taken
    _ = front := by rw [stopped, List.append_nil]

theorem rdropWhile_append_of_pos {drop : Char → Bool} {front marks : List Char}
    (marked : ∀ c ∈ marks, drop c = true) :
    (front ++ marks).rdropWhile drop = front.rdropWhile drop := by
  rw [List.rdropWhile, List.reverse_append, List.dropWhile_append_of_pos fun c member =>
    marked c (List.mem_reverse.1 member)]
  rfl

theorem rdropWhile_eq_self_iff_getLast? {cs : List Char} :
    cs.rdropWhile (· == '?') = cs ↔ cs.getLast? ≠ some '?' := by
  rw [List.rdropWhile_eq_self_iff]
  cases cs using List.reverseRecOn <;> simp

theorem isNameOf_iff : IsNameOf name raw ↔ variableName raw = name := by
  rw [← String.toList_inj, toList_variableName]
  constructor
  · rintro ⟨marks, rest, rfl, plain, stop, marked, bare⟩
    rw [beforeStop_append plain stop, rdropWhile_append_of_pos fun c member => by
      rw [marked c member]; rfl]
    exact rdropWhile_eq_self_iff_getLast?.2 bare
  · intro same
    -- the marks are what is taken off at the end, the rest begins where the name had to stop
    have whole : name.toList ++ (beforeStop raw).rtakeWhile (· == '?') = beforeStop raw := by
      rw [← same, List.rdropWhile_append_rtakeWhile]
    refine ⟨(beforeStop raw).rtakeWhile (· == '?'), raw.dropWhile fun c => c != ':' && c != '=',
      ?_, ?_, ?_, ?_, ?_⟩
    · rw [whole]
      exact List.takeWhile_append_dropWhile.symm
    · intro c member
      rw [whole] at member
      simpa using List.mem_takeWhile_imp member
    · intro c first
      have stopped := List.head?_dropWhile_not (fun c => c != ':' && c != '=') raw
      rw [Option.mem_def.1 first] at stopped
      simpa [or_iff_not_imp_left] using stopped
    · intro c member
      have taken := List.mem_rtakeWhile_imp member
      exact beq_iff_eq.1 taken
    · rw [← rdropWhile_eq_self_iff_getLast?, ← same]
      exact List.rdropWhile_idempotent _ _

end Names

section Scan

theorem scan_append_of_not_mem {text : List Char} (unopened : '\x7b' ∉ text)
    (literal rest : List Char) :
    scan literal none (text ++ rest) = scan (literal ++ text) none rest := by
  induction text generalizing literal with
  | nil => simp
  | cons c text ih =>
    obtain ⟨other, later⟩ := not_or.1 (mt List.mem_cons.2 unopened)
    rw [List.cons_append, scan, if_neg (Ne.symm other), ih later, List.append_assoc]
    rfl

theorem scan_opening (literal rest : List Char) :
    scan literal none ('\x7b' :: rest) = scan literal (some []) rest := by
  rw [scan, if_pos rfl]

theorem scan_raw {raw : List Char} (open_ : '\x7d' ∉ raw) (literal read rest : List Char) :
    scan literal (some read) (raw ++ '\x7d' :: rest) =
      literalPart literal ++ .variable (variableName (read ++ raw)) :: scan [] none rest := by
  induction raw generalizing read with
  | nil => rw [List.nil_append, scan, if_pos rfl, List.append_nil]
  | cons c raw ih =>
    obtain ⟨other, later⟩ := not_or.1 (mt List.mem_cons.2 open_)
    rw [List.cons_append, scan, if_neg (Ne.symm other), ih later, List.append_assoc]
    rfl

theorem scan_open {raw : List Char} (open_ : '\x7d' ∉ raw) (literal read : List Char) :
    scan literal (some read) raw = literalPart (literal ++ '\x7b' :: (read ++ raw)) := by
  induction raw generalizing read with
  | nil => rw [scan, List.append_nil]
  | cons c raw ih =>
    obtain ⟨other, later⟩ := not_or.1 (mt List.mem_cons.2 open_)
    rw [scan, if_neg (Ne.symm other), ih later, List.append_assoc]
    rfl

/-- An opening brace has no closing one behind it, so the text ends as it is. -/
theorem scan_unclosed {text : List Char} (unclosed : ¬['\x7b', '\x7d'].Sublist text) :
    scan [] none text = literalPart text := by
  by_cases opened : '\x7b' ∈ text
  · obtain ⟨front, back, rfl, unopened⟩ := List.eq_append_cons_of_mem opened
    have open_ : '\x7d' ∉ back := fun closed => unclosed
      ((List.singleton_sublist.2 closed).cons_cons _ |>.trans (List.sublist_append_right _ _))
    rw [scan_append_of_not_mem unopened, scan_opening, scan_open open_]
    rfl
  · have whole := scan_append_of_not_mem opened [] []
    rw [List.append_nil] at whole
    rw [whole, List.nil_append, scan]

end Scan

section Shape

variable {name text : String} {part : UriPart} {parts : List UriPart}

theorem Shaped.nil : Shaped [] where
  filled := List.not_mem_nil
  apart := by simp
  unopened := by simp
  unclosed := nofun

theorem Shaped.tail (shaped : Shaped (part :: parts)) : Shaped parts where
  filled := mt (List.mem_cons_of_mem part) shaped.filled
  apart first second inside :=
    shaped.apart first second (inside.trans (List.suffix_cons part parts).isInfix)
  unopened text name before := shaped.unopened text name (before.cons part)
  unclosed text ends := shaped.unclosed text (by rw [List.getLast?_cons, ends]; rfl)

theorem Shaped.variable (shaped : Shaped parts) : Shaped (.variable name :: parts) where
  filled := by simpa using shaped.filled
  apart first second inside := by
    rcases List.infix_cons_iff.1 inside with front | behind
    · cases (List.cons_prefix_cons.1 front).1
    · exact shaped.apart first second behind
  unopened text other before := by
    rcases List.cons_sublist_cons'.1 before with behind | ⟨same, -⟩
    · exact shaped.unopened text other behind
    · cases same
  unclosed text ends := by
    refine shaped.unclosed text ?_
    rw [List.getLast?_cons] at ends
    cases last : parts.getLast? with
    | none => simp [last] at ends
    | some part => simpa [last] using ends

theorem Shaped.last (full : text ≠ "") (unclosed : ¬['\x7b', '\x7d'].Sublist text.toList) :
    Shaped [.literal text] where
  filled := by simpa using full.symm
  apart := by simp [List.infix_cons_iff]
  unopened := by simp
  unclosed := by
    rintro _ ⟨⟩
    exact unclosed

theorem Shaped.literal (full : text ≠ "") (unopened : '\x7b' ∉ text.toList)
    (shaped : Shaped (.variable name :: parts)) :
    Shaped (.literal text :: .variable name :: parts) where
  filled member := by
    rcases List.mem_cons.1 member with same | behind
    · exact full (UriPart.literal.inj same).symm
    · exact shaped.filled behind
  apart first second inside := by
    rcases List.infix_cons_iff.1 inside with front | behind
    · cases (List.cons_prefix_cons.1 (List.cons_prefix_cons.1 front).2).1
    · exact shaped.apart first second behind
  unopened other wanted before := by
    rcases List.cons_sublist_cons'.1 before with behind | ⟨same, -⟩
    · exact shaped.unopened other wanted behind
    · cases same
      exact unopened
  unclosed last ends := shaped.unclosed last (by rwa [List.getLast?_cons_cons] at ends)

theorem Shaped.of_literal (shaped : Shaped (.literal text :: parts)) :
    parts = [] ∧ ¬['\x7b', '\x7d'].Sublist text.toList ∨
      (∃ name rest, parts = .variable name :: rest) ∧ '\x7b' ∉ text.toList := by
  cases parts with
  | nil => exact .inl ⟨rfl, shaped.unclosed text rfl⟩
  | cons part rest =>
    cases part with
    | literal other =>
      exact absurd (List.prefix_append [_, _] rest).isInfix (shaped.apart text other)
    | «variable» name =>
      have before : [UriPart.literal text, .variable name].Sublist
          (.literal text :: .variable name :: rest) := by simp
      exact .inr ⟨⟨name, rest, rfl⟩, shaped.unopened text name before⟩

end Shape

section

variable {template : List Char} {parts : List UriPart}

theorem literalPart_toList {text : String} (full : text ≠ "") :
    literalPart text.toList = [.literal text] := by
  simp [literalPart, full]

theorem written_literalPart (text : List Char) {rest : List Char} (written : Written parts rest) :
    Written (literalPart text ++ parts) (text ++ rest) := by
  unfold literalPart
  split
  · next empty => simpa [List.isEmpty_iff.1 empty] using written
  · have whole : Written (.literal (String.ofList text) :: parts)
        ((String.ofList text).toList ++ rest) := .literal written
    simpa using whole

theorem shaped_literalPart {text : List Char} (unclosed : ¬['\x7b', '\x7d'].Sublist text) :
    Shaped (literalPart text) := by
  unfold literalPart
  split
  · exact .nil
  · next full => exact .last (by simpa using full) (by simpa using unclosed)

theorem shaped_literalPart_append {text : List Char} {name : String} (unopened : '\x7b' ∉ text)
    (shaped : Shaped parts) : Shaped (literalPart text ++ .variable name :: parts) := by
  unfold literalPart
  split
  · exact shaped.variable
  · next full => exact .literal (by simpa using full) (by simpa using unopened) shaped.variable

theorem not_sublist_of_not_mem {front back : List Char} (unopened : '\x7b' ∉ front)
    (open_ : '\x7d' ∉ back) : ¬['\x7b', '\x7d'].Sublist (front ++ '\x7b' :: back) := by
  intro braces
  induction front with
  | nil =>
    rcases List.cons_sublist_cons'.1 braces with behind | ⟨-, closed⟩
    · exact open_ (behind.subset (by simp))
    · exact open_ (List.singleton_sublist.1 closed)
  | cons c front ih =>
    obtain ⟨other, later⟩ := not_or.1 (mt List.mem_cons.2 unopened)
    rcases List.cons_sublist_cons'.1 braces with behind | ⟨same, -⟩
    · exact ih later behind
    · exact other same

/-- What has been read since the last part. -/
def pending (literal : List Char) (raw : Option (List Char)) : List Char :=
  literal ++ raw.elim [] ('\x7b' :: ·)

theorem scan_writes (literal : List Char) (raw : Option (List Char)) (rest : List Char)
    (unopened : '\x7b' ∉ literal) (open_ : ∀ read ∈ raw, '\x7d' ∉ read) :
    Written (scan literal raw rest) (pending literal raw ++ rest) ∧
      Shaped (scan literal raw rest) := by
  fun_induction scan literal raw rest with
  | case1 literal =>
    -- the end, with no brace open
    have unclosed : ¬['\x7b', '\x7d'].Sublist literal := fun braces =>
      unopened (braces.subset (by simp))
    have written := written_literalPart literal .nil
    exact ⟨by simpa [pending] using written, shaped_literalPart unclosed⟩
  | case2 literal raw =>
    -- the end, with a brace open: the brace is text
    have written := written_literalPart (literal ++ '\x7b' :: raw) .nil
    exact ⟨by simpa [pending] using written,
      shaped_literalPart (not_sublist_of_not_mem unopened (open_ raw rfl))⟩
  | case3 literal rest ih =>
    -- a brace opens
    obtain ⟨written, shaped⟩ := ih unopened (by simp)
    exact ⟨by simpa [pending] using written, shaped⟩
  | case4 literal c rest other ih =>
    -- one more character of text
    obtain ⟨written, shaped⟩ := ih (by simp [unopened, Ne.symm other]) nofun
    exact ⟨by simpa [pending] using written, shaped⟩
  | case5 literal rest raw ih =>
    -- the brace closes
    obtain ⟨written, shaped⟩ := ih List.not_mem_nil nofun
    have behind := written_literalPart literal
      (.braced (open_ raw rfl) (isNameOf_iff.2 rfl) written)
    exact ⟨by simpa [pending] using behind, shaped_literalPart_append unopened shaped⟩
  | case6 literal c rest raw other ih =>
    -- one more character between braces
    have still : ∀ read ∈ some (raw ++ [c]), '\x7d' ∉ read := by
      rintro _ ⟨⟩
      simp [open_ raw rfl, Ne.symm other]
    obtain ⟨written, shaped⟩ := ih unopened still
    exact ⟨by simpa [pending] using written, shaped⟩

theorem scan_written (written : Written parts template) (shaped : Shaped parts) :
    scan [] none template = parts := by
  induction written with
  | nil => rfl
  | @literal text parts rest written ih =>
    have full : text ≠ "" := fun empty => shaped.filled (by simp [empty])
    rcases shaped.of_literal with ⟨rfl, unclosed⟩ | ⟨⟨name, later, rfl⟩, unopened⟩
    · cases written
      rw [List.append_nil, scan_unclosed unclosed, literalPart_toList full]
    · -- the braces of the variable behind the text end it
      cases written with
      | @braced _ raw _ rest open_ named behind =>
        have next := ih shaped.tail
        rw [List.cons_append, scan_opening, scan_raw open_] at next
        rw [scan_append_of_not_mem unopened, List.cons_append, scan_opening, scan_raw open_,
          List.nil_append, literalPart_toList full, List.singleton_append]
        exact congrArg _ next
  | @braced name raw parts rest open_ named written ih =>
    rw [List.cons_append, scan_opening, scan_raw open_, ih shaped.tail]
    exact congrArg (fun name => .variable name :: parts) (isNameOf_iff.1 named)

end

def printPart : UriPart → String
  | .literal text => text
  | .variable name => "\x7b" ++ name ++ "\x7d"

def print (parts : List UriPart) : String :=
  String.join (parts.map printPart)

/-- A name that is its own raw text. -/
structure IsPlainName (name : String) : Prop where
  unclosed : '\x7d' ∉ name.toList
  unconstrained : ':' ∉ name.toList
  undefaulted : '=' ∉ name.toList
  unmarked : name.toList.getLast? ≠ some '?'

theorem IsPlainName.isNameOf {name : String} (plain : IsPlainName name) :
    IsNameOf name name.toList := by
  refine ⟨[], [], by simp, fun c member => ?_, nofun, nofun, plain.unmarked⟩
  rw [List.append_nil] at member
  constructor
  · rintro rfl
    exact plain.unconstrained member
  · rintro rfl
    exact plain.undefaulted member

theorem written_print {parts : List UriPart}
    (plain : ∀ name, .variable name ∈ parts → IsPlainName name) :
    Written parts (print parts).toList := by
  induction parts with
  | nil => exact .nil
  | cons part parts ih =>
    have behind := ih fun name member => plain name (List.mem_cons_of_mem part member)
    rw [print, List.map_cons, String.join_cons, String.toList_append]
    cases part with
    | literal text => exact .literal behind
    | «variable» name =>
      have own := plain name List.mem_cons_self
      have written := Written.braced own.unclosed own.isNameOf behind
      simpa [printPart, print] using written

/-- Every text is written by its parts, which are shaped, and by no other shaped list; printing and
reading shaped parts with plain names changes nothing. -/
theorem parts_characterized :
    (∀ template, Written (parts template) template.toList ∧ Shaped (parts template)) ∧
    (∀ template list, Written list (String.toList template) → Shaped list →
      parts template = list) ∧
    ∀ list, Shaped list → (∀ name, .variable name ∈ list → IsPlainName name) →
      parts (print list) = list := by
  refine ⟨fun template => ?_, fun template list => scan_written, fun list shaped plain => ?_⟩
  · exact scan_writes [] none template.toList List.not_mem_nil nofun
  · exact scan_written (written_print plain) shaped

def bracedParts : List UriPart :=
  [.literal "heroes/\x7d/", .variable "id", .variable "", .literal "\x7bof"]

theorem parts_characterized_braced :
    Shaped bracedParts ∧ parts "heroes/\x7d/\x7bid\x7d\x7b\x7d\x7bof" = bracedParts ∧
      parts "heroes/\x7d/\x7bid??:int\x7d\x7b=1\x7d\x7bof" = bracedParts := by
  have shaped : Shaped bracedParts :=
    .literal (by decide) (by decide) (.variable (.variable (.last (by decide) (by decide))))
  have plain : ∀ name, .variable name ∈ bracedParts → IsPlainName name := by
    intro name member
    have names : name = "id" ∨ name = "" := by simpa [bracedParts] using member
    rcases names with rfl | rfl <;> exact ⟨by decide, by decide, by decide, by decide⟩
  have written : Written bracedParts "heroes/\x7d/\x7bid??:int\x7d\x7b=1\x7d\x7bof".toList := by
    have id : IsNameOf "id" "id??:int".toList := isNameOf_iff.2 (by decide)
    have nameless : IsNameOf "" "=1".toList := isNameOf_iff.2 (by decide)
    exact .literal (.braced (by decide) id (.braced (by decide) nameless (.literal .nil)))
  obtain ⟨-, unique, printed⟩ := parts_characterized
  exact ⟨shaped, printed bracedParts shaped plain, unique _ bracedParts written shaped⟩

end ApiClient.Manifest.UriTemplate
