import ApiClient.Proofs.Layout.Nesting
import ApiClient.Proofs.Text.OneLine

/-! Pieces of code that the machine of the braces reads.

A piece within a line leaves the line with as many open braces as it found. A piece that a line can
start with begins with a character that is neither blank nor a closing brace, so it is read behind
the margin in the same way as in the middle of a line.
-/

set_option autoImplicit false

namespace ApiClient.Layout

open ApiClient.Text ApiClient.Number

namespace Position

def line (opened : Nat) : Position := ⟨.margin [], opened⟩

def code (opened : Nat) : Position := ⟨.code, opened⟩

end Position

open Position

/-- The machine reads a text from one position to another. -/
def Reads (indent : Indent) (depth : Nat) (first last : Position) (text : String) : Prop :=
  run indent depth first text.toList = some last

section Reads

variable {indent : Indent} {depth opened : Nat} {first middle last : Position}

theorem Reads.empty : Reads indent depth first first "" := rfl

theorem Reads.append {front back : String} (before : Reads indent depth first middle front)
    (after : Reads indent depth middle last back) :
    Reads indent depth first last (front ++ back) := by
  unfold Reads at *
  rw [String.toList_append, run_append, before]
  exact after

theorem reads_feed : Reads indent depth (code opened) (line opened) "\n" := rfl

theorem reads_blankLine : Reads indent depth (line opened) (line opened) "\n" := rfl

theorem reads_opening : Reads indent depth (code opened) (line (opened + 1)) "\x7b\n" := rfl

theorem reads_closing : Reads indent depth (code (opened + 1)) (code opened) "\x7d" := rfl

theorem run_blanks {blanks more : List Char} (blank : ∀ c ∈ more, isBlank c = true)
    (whole : '\n' ∉ more) :
    run indent depth ⟨.margin blanks, opened⟩ more = some ⟨.margin (blanks ++ more), opened⟩ := by
  induction more generalizing blanks with
  | nil => rw [List.append_nil]; rfl
  | cons c rest ih =>
    obtain ⟨here, later⟩ := List.forall_mem_cons.1 blank
    obtain ⟨other, others⟩ := List.ne_and_not_mem_of_not_mem_cons whole
    have next : step indent depth ⟨.margin blanks, opened⟩ c =
        some ⟨.margin (blanks ++ [c]), opened⟩ := by
      simp only [step, if_neg other.symm, if_pos here]
    rw [run_cons, next, Option.bind_some, ih later others, List.append_assoc]
    rfl

theorem blank_of_mem_unit {c : Char} (member : c ∈ indent.unit.toList) :
    isBlank c = true ∧ c ≠ '\n' := by
  have all : indent.unit.toList.all (fun c => isBlank c && c != '\n') = true := by
    unfold Indent.unit
    split <;> decide
  simpa using List.all_eq_true.1 all c member

theorem blank_of_mem_times {levels : Nat} {c : Char}
    (member : c ∈ (indent.times levels).toList) : isBlank c = true ∧ c ≠ '\n' := by
  rw [Indent.times, String.toList_join] at member
  obtain ⟨text, copies, inside⟩ := List.mem_flatMap.1 member
  obtain rfl := List.eq_of_mem_replicate copies
  exact blank_of_mem_unit inside

theorem reads_margin (levels : Nat) :
    Reads indent depth (line opened) ⟨.margin (indent.times levels).toList, opened⟩
      (indent.times levels) :=
  run_blanks (fun _ member => (blank_of_mem_times member).1)
    fun feed => (blank_of_mem_times feed).2 rfl

end Reads

/-- A line can start with this text. -/
def Starts (text : String) : Prop :=
  ∃ c ∈ text.toList.head?, isBlank c = false ∧ c ≠ '\x7d'

instance (text : String) : Decidable (Starts text) :=
  Option.decidableExistsMem text.toList.head?

theorem Starts.append {front : String} (starts : Starts front) (back : String) :
    Starts (front ++ back) := by
  obtain ⟨c, first, solid⟩ := starts
  refine ⟨c, ?_, solid⟩
  rw [String.toList_append, List.head?_append, Option.mem_def.1 first]
  rfl

theorem reads_indented {indent : Indent} {depth opened : Nat} {last : Position} {text : String}
    (starts : Starts text) (reads : Reads indent depth (code opened) last text) :
    Reads indent depth (line opened) last (indent.times (depth + opened) ++ text) := by
  refine (reads_margin (depth + opened)).append ?_
  obtain ⟨c, first, solid, other⟩ := starts
  obtain ⟨rest, chars⟩ := List.head?_eq_some_iff.1 first
  have feed : c ≠ '\n' := by
    rintro rfl
    exact absurd solid (by decide)
  have same : step indent depth ⟨.margin (indent.times (depth + opened)).toList, opened⟩ c =
      step indent depth (code opened) c := by
    simp [step, code, feed, solid, units, other]
  unfold Reads at reads ⊢
  rw [chars, run_cons] at reads ⊢
  rwa [same]

theorem reads_closingLine {indent : Indent} {depth opened : Nat} :
    Reads indent depth (line (opened + 1)) (code opened)
      (indent.times (depth + opened) ++ "\x7d") := by
  refine (reads_margin (depth + opened)).append ?_
  have brace : step indent depth
      ⟨.margin (indent.times (depth + opened)).toList, opened + 1⟩ '\x7d' = some (code opened) := by
    have placed : units depth (opened + 1) '\x7d' = depth + opened := rfl
    simp only [step, placed, if_pos]
    rfl
  have chars : "\x7d".toList = ['\x7d'] := by decide
  unfold Reads
  rw [chars, run_cons, brace]
  rfl

/-- Characters that end a line or have a part in strings or blocks. -/
def signs : List Char := ['\n', '"', '\x7b', '\x7d']

def Calm (text : String) : Prop :=
  ∀ c ∈ text.toList, c ∉ signs

instance (text : String) : Decidable (Calm text) :=
  List.decidableBAll (· ∉ signs) text.toList

def Position.InLine (position : Position) : Prop :=
  ∀ blanks, position.spot ≠ .margin blanks

theorem inLine_code (opened : Nat) : (code opened).InLine :=
  fun _ => Spot.noConfusion

section InLine

variable {indent : Indent} {depth opened : Nat} {first last : Position}

theorem Position.InLine.step {c : Char} (within : first.InLine) (feed : c ≠ '\n')
    (read : step indent depth first c = some last) : last.InLine := by
  obtain ⟨spot, opened⟩ := first
  cases spot with
  | margin blanks => exact absurd rfl (within blanks)
  | code | quoted =>
    simp only [Position.step, afterCode, if_neg feed] at read
    split_ifs at read <;> cases read <;> exact fun _ => Spot.noConfusion
  | escaped =>
    simp only [Position.step, if_neg feed] at read
    cases read
    exact fun _ => Spot.noConfusion

theorem Position.InLine.run {cs : List Char} (within : first.InLine) (whole : '\n' ∉ cs)
    (read : run indent depth first cs = some last) : last.InLine := by
  induction cs generalizing first with
  | nil =>
    cases read
    exact within
  | cons c rest ih =>
    obtain ⟨other, later⟩ := List.ne_and_not_mem_of_not_mem_cons whole
    rw [run_cons] at read
    obtain ⟨next, step, after⟩ := Option.bind_eq_some_iff.1 read
    exact ih (within.step other.symm step) later after

/-- A calm character in code leaves it as it is, and no other place in a line turns into code. -/
theorem eq_code_of_step_calm {c : Char} (within : first.InLine) (calm : c ∉ signs)
    (read : step indent depth first c = some (code opened)) : first = code opened := by
  simp only [signs, List.mem_cons, List.not_mem_nil, or_false, not_or] at calm
  obtain ⟨feed, quote, opening, closing⟩ := calm
  obtain ⟨spot, count⟩ := first
  cases spot with
  | margin blanks => exact absurd rfl (within blanks)
  | code =>
    simp only [step, afterCode, feed, quote, opening, closing, if_false] at read
    exact Option.some.inj read
  | quoted =>
    simp only [step, feed, quote, if_false] at read
    split_ifs at read <;> cases read
  | escaped =>
    simp only [step, feed, if_false] at read
    cases read

theorem eq_code_of_run_calm {cs : List Char} (within : first.InLine)
    (calm : ∀ c ∈ cs, c ∉ signs) (read : run indent depth first cs = some (code opened)) :
    first = code opened := by
  induction cs generalizing first with
  | nil => exact Option.some.inj read
  | cons c rest ih =>
    obtain ⟨here, later⟩ := List.forall_mem_cons.1 calm
    have feed : c ≠ '\n' := by
      rintro rfl
      exact here (by decide)
    rw [run_cons] at read
    obtain ⟨next, step, after⟩ := Option.bind_eq_some_iff.1 read
    obtain rfl := ih (within.step feed step) later after
    exact eq_code_of_step_calm within here step

end InLine

/-- A text that stays within its line and closes the braces that it opens. -/
structure Inline (text : String) : Prop where
  oneLine : OneLine text
  reads : ∀ indent depth opened, Reads indent depth (code opened) (code opened) text

namespace Inline

variable {text : String}

theorem empty : Inline "" := ⟨.empty, fun _ _ _ => .empty⟩

theorem append {front back : String} (first : Inline front) (second : Inline back) :
    Inline (front ++ back) :=
  ⟨first.oneLine.append second.oneLine, fun indent depth opened =>
    (first.reads indent depth opened).append (second.reads indent depth opened)⟩

theorem intercalate {separator : String} (between : Inline separator) {texts : List String}
    (each : ∀ text ∈ texts, Inline text) : Inline (separator.intercalate texts) := by
  induction texts with
  | nil => exact empty
  | cons text rest ih =>
    obtain ⟨first, later⟩ := List.forall_mem_cons.1 each
    cases rest with
    | nil => simpa using first
    | cons next rest =>
      rw [String.intercalate_cons_cons]
      exact (first.append between).append (ih later)

theorem of_calm (calm : Calm text) : Inline text := by
  refine ⟨fun feed => calm _ feed (by decide), fun indent depth opened => ?_⟩
  unfold Calm at calm
  unfold Reads
  generalize text.toList = cs at calm
  induction cs with
  | nil => rfl
  | cons c rest ih =>
    obtain ⟨first, later⟩ := List.forall_mem_cons.1 calm
    simp only [signs, List.mem_cons, List.not_mem_nil, or_false, not_or] at first
    obtain ⟨feed, quote, opening, closing⟩ := first
    have next : step indent depth (code opened) c = some (code opened) := by
      simp [step, code, afterCode, feed, quote, opening, closing]
    rw [run_cons, next]
    exact ih later

theorem run_escaped (indent : Indent) (depth opened : Nat) (cs : List Char) :
    run indent depth ⟨.quoted, opened⟩ (cs.flatMap doubleQuotedChar) = some ⟨.quoted, opened⟩ := by
  induction cs with
  | nil => rfl
  | cons c rest ih =>
    have here : run indent depth ⟨.quoted, opened⟩ (doubleQuotedChar c) =
        some ⟨.quoted, opened⟩ := by
      unfold doubleQuotedChar
      split
      case h_5 backslash quote feed _ =>
        rw [run_cons]
        simp only [step, if_neg feed, if_neg quote, if_neg backslash]
        rfl
      all_goals rfl
    rw [List.flatMap_cons, run_append, here]
    exact ih

theorem doubleQuoted (text : String) : Inline (doubleQuoted text) := by
  refine ⟨oneLine_doubleQuoted text, fun indent depth opened => ?_⟩
  have inner : Reads indent depth ⟨.quoted, opened⟩ ⟨.quoted, opened⟩
      (escapeWith doubleQuotedChar text) := by
    unfold Reads escapeWith
    rw [String.toList_ofList]
    exact run_escaped indent depth opened text.toList
  have first : Reads indent depth (code opened) ⟨.quoted, opened⟩ "\"" := rfl
  have last : Reads indent depth ⟨.quoted, opened⟩ (code opened) "\"" := rfl
  exact (first.append inner).append last

/-- What comes before calm characters stays within its line as well. -/
theorem of_append_calm {front back : String} (both : Inline (front ++ back))
    (calm : Calm back) : Inline front := by
  have whole : '\n' ∉ front.toList := fun feed =>
    both.oneLine (by rw [String.toList_append]; exact List.mem_append_left _ feed)
  refine ⟨whole, fun indent depth opened => ?_⟩
  have read := both.reads indent depth opened
  unfold Reads at read ⊢
  rw [String.toList_append, run_append] at read
  obtain ⟨middle, first, last⟩ := Option.bind_eq_some_iff.1 read
  have within := (inLine_code opened).run whole first
  rw [first, eq_code_of_run_calm within calm last]

end Inline

/-- A text within a line that a line can start with. -/
structure Solid (text : String) : Prop extends Inline text where
  starts : Starts text

theorem Solid.append {front back : String} (first : Solid front) (second : Inline back) :
    Solid (front ++ back) :=
  ⟨first.toInline.append second, first.starts.append back⟩

/-- Code from the middle of a line to some other position, where a line may start. -/
structure Stands (indent : Indent) (depth opened : Nat) (last : Position) (text : String) :
    Prop where
  reads : Reads indent depth (.code opened) last text
  starts : Starts text

theorem Stands.append {indent : Indent} {depth opened : Nat} {middle last : Position}
    {front back : String} (before : Stands indent depth opened middle front)
    (after : Reads indent depth middle last back) :
    Stands indent depth opened last (front ++ back) :=
  ⟨before.reads.append after, before.starts.append back⟩

theorem Solid.stands {text : String} (solid : Solid text) (indent : Indent) (depth opened : Nat) :
    Stands indent depth opened (.code opened) text :=
  ⟨solid.reads indent depth opened, solid.starts⟩

structure Plain (text : String) : Prop where
  calm : Calm text
  begins : ∃ c ∈ text.toList.head?, isBlank c = false

instance (text : String) : Decidable (Plain text) :=
  letI := Option.decidableExistsMem (p := fun c => isBlank c = false) text.toList.head?
  decidable_of_iff (Calm text ∧ ∃ c ∈ text.toList.head?, isBlank c = false)
    ⟨fun ⟨calm, begins⟩ => ⟨calm, begins⟩, fun ⟨calm, begins⟩ => ⟨calm, begins⟩⟩

theorem not_mem_signs_of_isNumeral {c : Char} (numeral : IsNumeral c) : c ∉ signs := by
  intro sign
  simp only [signs, List.mem_cons, List.not_mem_nil, or_false] at sign
  rcases sign with rfl | rfl | rfl | rfl <;> exact absurd numeral (by decide)

theorem isBlank_of_isNumeral {c : Char} (numeral : IsNumeral c) : isBlank c = false := by
  rcases numeral with digit | letter
  · obtain ⟨lower, upper⟩ : 48 ≤ c.toNat ∧ c.toNat ≤ 57 := by
      simpa [Char.isDigit, UInt32.le_iff_toNat_le] using digit
    simp [isBlank]
    omega
  · have all : ['-', '.', 'N', 'a', 'I', 'n', 'f', 'i', 't', 'y'].all (!isBlank ·) = true := by
      decide
    simpa using List.all_eq_true.1 all c letter

theorem Plain.of_numerals {text : String} (numerals : Numerals text) (filled : text ≠ "") :
    Plain text := by
  refine ⟨fun c member => not_mem_signs_of_isNumeral (numerals c member), ?_⟩
  obtain ⟨c, rest, chars⟩ := List.exists_cons_of_ne_nil (mt String.toList_eq_nil_iff.1 filled)
  have member : c ∈ text.toList := by simp [chars]
  exact ⟨c, by simp [chars], isBlank_of_isNumeral (numerals c member)⟩

theorem Plain.solid {text : String} (plain : Plain text) : Solid text := by
  refine ⟨.of_calm plain.calm, ?_⟩
  obtain ⟨c, first, solid⟩ := plain.begins
  refine ⟨c, first, solid, ?_⟩
  rintro rfl
  exact plain.calm _ (List.mem_of_mem_head? first) (by decide)

end ApiClient.Layout
