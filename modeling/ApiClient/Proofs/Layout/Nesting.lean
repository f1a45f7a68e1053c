import Mathlib.Data.List.Basic
import ApiClient.Layout.Indent
import ApiClient.Text.Blank

/-! Indentation that follows the braces.

A brace counts unless it stands between double quotes, where a backslash takes the character after
it along. A text is indented by its braces when the braces match and every line that is not blank
starts as many units in as there are braces open before it; a line that starts by closing a brace is
one unit less. A machine reads a text character by character and stops at the first one that is out
of place. What it reads to the end is indented by its braces, and texts it reads one after the other
it reads together.
-/

set_option autoImplicit false

namespace ApiClient.Layout

open ApiClient.Text

/-- Where a character stands with respect to double quotes. -/
inductive Quotation where
  | outside
  | inside
  | escaped
  deriving DecidableEq

namespace Quotation

def next : Quotation → Char → Quotation
  | .outside, c => if c = '"' then .inside else .outside
  | .inside, c => if c = '"' then .outside else if c = '\\' then .escaped else .inside
  | .escaped, _ => .inside

def weight : Quotation → Char → Int
  | .outside, c => if c = '\x7b' then 1 else if c = '\x7d' then -1 else 0
  | .inside, _ => 0
  | .escaped, _ => 0

end Quotation

def openBracesFrom : Quotation → List Char → Int
  | _, [] => 0
  | quotation, c :: rest => quotation.weight c + openBracesFrom (quotation.next c) rest

/-- How many braces a text opens more than it closes. -/
def openBraces (cs : List Char) : Int :=
  openBracesFrom .outside cs

/-- A line of a text and everything before it. -/
structure IsLine (text front line : List Char) : Prop where
  found : ∃ back, text = front ++ line ++ back ∧ (back = [] ∨ back.head? = some '\n')
  starts : front = [] ∨ front.getLast? = some '\n'
  whole : '\n' ∉ line

/-- A line is blank or starts this many units in. -/
def StartsAt (indent : Indent) (levels : Char → Int) (line : List Char) : Prop :=
  (∀ c ∈ line, isBlank c = true) ∨
    ∃ (units : Nat) (c : Char) (rest : List Char), line = (indent.times units).toList ++ c :: rest ∧
      isBlank c = false ∧ (units : Int) = levels c

structure IndentedByBraces (indent : Indent) (depth : Nat) (text : List Char) : Prop where
  opened : ∀ front, front <+: text → 0 ≤ openBraces front
  closed : openBraces text = 0
  lines : ∀ front line, IsLine text front line →
    StartsAt indent (fun c => depth + openBraces front - if c = '\x7d' then 1 else 0) line

/-- Where a reader stands: behind the blanks that start a line, behind them in a line of code, or
between double quotes. -/
inductive Spot where
  | margin (blanks : List Char)
  | code
  | quoted
  | escaped

def Spot.quotation : Spot → Quotation
  | .margin _ => .outside
  | .code => .outside
  | .quoted => .inside
  | .escaped => .escaped

structure Position where
  spot : Spot
  opened : Nat

namespace Position

/-- A brace can be closed only if one is open. -/
def afterCode (opened : Nat) (c : Char) : Option Position :=
  if c = '\n' then some ⟨.margin [], opened⟩
  else if c = '"' then some ⟨.quoted, opened⟩
  else if c = '\x7b' then some ⟨.code, opened + 1⟩
  else if c = '\x7d' then if opened = 0 then none else some ⟨.code, opened - 1⟩
  else some ⟨.code, opened⟩

/-- How many units in a line starts whose first character is `c`. -/
def units (depth opened : Nat) (c : Char) : Nat :=
  depth + opened - if c = '\x7d' then 1 else 0

/-- The first character of a line that is not blank has to stand where the open braces say. -/
def step (indent : Indent) (depth : Nat) : Position → Char → Option Position
  | ⟨.margin blanks, opened⟩, c =>
    if c = '\n' then some ⟨.margin [], opened⟩
    else if isBlank c then some ⟨.margin (blanks ++ [c]), opened⟩
    else if blanks = (indent.times (units depth opened c)).toList then afterCode opened c
    else none
  | ⟨.code, opened⟩, c => afterCode opened c
  | ⟨.quoted, opened⟩, c =>
    if c = '\n' then none
    else if c = '"' then some ⟨.code, opened⟩
    else if c = '\\' then some ⟨.escaped, opened⟩
    else some ⟨.quoted, opened⟩
  | ⟨.escaped, opened⟩, c => if c = '\n' then none else some ⟨.quoted, opened⟩

def run (indent : Indent) (depth : Nat) (position : Position) (cs : List Char) : Option Position :=
  cs.foldlM (step indent depth) position

end Position

section Soundness

open Position

variable {indent : Indent} {depth : Nat}

theorem run_cons (position : Position) (c : Char) (rest : List Char) :
    run indent depth position (c :: rest) =
      (step indent depth position c).bind fun next => run indent depth next rest :=
  List.foldlM_cons

theorem run_append (position : Position) (front back : List Char) :
    run indent depth position (front ++ back) =
      (run indent depth position front).bind fun middle => run indent depth middle back :=
  List.foldlM_append

theorem exists_run_of_prefix {position last : Position} {front text : List Char}
    (begins : front <+: text) (read : run indent depth position text = some last) :
    ∃ middle, run indent depth position front = some middle := by
  obtain ⟨back, rfl⟩ := begins
  rw [run_append] at read
  obtain ⟨middle, first, -⟩ := Option.bind_eq_some_iff.1 read
  exact ⟨middle, first⟩

def Counts (position : Position) (c : Char) (next : Position) : Prop :=
  next.spot.quotation = position.spot.quotation.next c ∧
    (next.opened : Int) = position.opened + position.spot.quotation.weight c

theorem afterCode_counts {opened : Nat} {c : Char} {next : Position}
    (read : afterCode opened c = some next) : Counts ⟨.code, opened⟩ c next := by
  unfold afterCode at read
  split_ifs at read <;> cases read <;>
    simp_all [Counts, Spot.quotation, Quotation.next, Quotation.weight]
  omega

theorem step_counts {position next : Position} {c : Char}
    (read : step indent depth position c = some next) : Counts position c next := by
  obtain ⟨spot, opened⟩ := position
  cases spot with
  | margin blanks =>
    simp only [step] at read
    split_ifs at read with feed blank placed
    · cases read
      simp [Counts, Spot.quotation, Quotation.next, Quotation.weight, feed]
    · cases read
      -- none of the characters that count is blank
      have quote : c ≠ '"' := by rintro rfl; exact absurd blank (by decide)
      have opening : c ≠ '\x7b' := by rintro rfl; exact absurd blank (by decide)
      have closing : c ≠ '\x7d' := by rintro rfl; exact absurd blank (by decide)
      simp [Counts, Spot.quotation, Quotation.next, Quotation.weight, quote, opening, closing]
    · exact afterCode_counts read
  | code => exact afterCode_counts read
  | quoted =>
    simp only [step] at read
    split_ifs at read <;> cases read <;>
      simp_all [Counts, Spot.quotation, Quotation.next, Quotation.weight]
  | escaped =>
    simp only [step] at read
    split_ifs at read
    cases read
    simp [Counts, Spot.quotation, Quotation.next, Quotation.weight]

theorem run_counts {position last : Position} {cs : List Char}
    (read : run indent depth position cs = some last) :
    (last.opened : Int) = position.opened + openBracesFrom position.spot.quotation cs := by
  induction cs generalizing position with
  | nil =>
    cases read
    simp [openBracesFrom]
  | cons c rest ih =>
    rw [run_cons] at read
    obtain ⟨next, first, later⟩ := Option.bind_eq_some_iff.1 read
    obtain ⟨quotation, weight⟩ := step_counts first
    rw [ih later, openBracesFrom, quotation, weight, Int.add_assoc]

theorem afterCode_feed {opened : Nat} {next : Position}
    (read : afterCode opened '\n' = some next) : next.spot = .margin [] := by
  cases read
  rfl

theorem step_feed {position next : Position}
    (read : step indent depth position '\n' = some next) : next.spot = .margin [] := by
  obtain ⟨spot, opened⟩ := position
  cases spot with
  | margin blanks => cases read; rfl
  | code => exact afterCode_feed read
  | quoted => exact nomatch read
  | escaped => exact nomatch read

theorem spot_of_run_line {last : Position} {front : List Char}
    (read : run indent depth ⟨.margin [], 0⟩ front = some last)
    (starts : front = [] ∨ front.getLast? = some '\n') : last.spot = .margin [] := by
  rcases starts with rfl | feed
  · cases read
    rfl
  · -- what comes before the line feed does not matter
    rw [(List.dropLast_append_getLast? _ feed).symm, run_append] at read
    obtain ⟨middle, -, last⟩ := Option.bind_eq_some_iff.1 read
    rw [run_cons] at last
    obtain ⟨next, step, rest⟩ := Option.bind_eq_some_iff.1 last
    cases rest
    exact step_feed step

theorem startsAt_of_run {blanks line : List Char} {opened : Nat} {last : Position}
    (blank : ∀ c ∈ blanks, isBlank c = true) (whole : '\n' ∉ line)
    (read : run indent depth ⟨.margin blanks, opened⟩ line = some last) :
    StartsAt indent (fun c => depth + opened - if c = '\x7d' then 1 else 0) (blanks ++ line) := by
  -- the blanks grow until the first other character, where the machine compares them
  induction line generalizing blanks with
  | nil => exact .inl (by simpa using blank)
  | cons c rest ih =>
    obtain ⟨other, later⟩ := List.ne_and_not_mem_of_not_mem_cons whole
    rw [run_cons] at read
    obtain ⟨next, first, after⟩ := Option.bind_eq_some_iff.1 read
    simp only [step, if_neg other.symm] at first
    split_ifs at first with isBlank placed
    · cases first
      have blanks := ih (List.forall_mem_append.2 ⟨blank, List.forall_mem_singleton.2 isBlank⟩)
        later after
      rwa [List.append_assoc] at blanks
    · refine .inr ⟨_, c, rest, by rw [placed], by simpa using isBlank, ?_⟩
      -- a closing brace is read only where one is open
      by_cases closing : c = '\x7d'
      · subst closing
        have positive : opened ≠ 0 := by
          rintro rfl
          exact nomatch first
        simp only [units, if_true]
        omega
      · simp [units, closing]

theorem indentedByBraces_of_run {text : List Char}
    (read : run indent depth ⟨.margin [], 0⟩ text = some ⟨.margin [], 0⟩) :
    IndentedByBraces indent depth text := by
  have counted {front : List Char} {last : Position}
      (read : run indent depth ⟨.margin [], 0⟩ front = some last) :
      openBraces front = last.opened := by
    have counts := run_counts read
    exact (counts.trans (Int.zero_add _)).symm
  constructor
  · intro front isPrefix
    obtain ⟨middle, first⟩ := exists_run_of_prefix isPrefix read
    rw [counted first]
    exact Int.natCast_nonneg _
  · exact counted read
  · rintro front line ⟨⟨back, rfl, -⟩, starts, whole⟩
    obtain ⟨last, both⟩ := exists_run_of_prefix (List.prefix_append (front ++ line) back) read
    rw [run_append] at both
    obtain ⟨⟨spot, opened⟩, first, second⟩ := Option.bind_eq_some_iff.1 both
    obtain rfl : spot = .margin [] := spot_of_run_line first starts
    rw [counted first]
    exact startsAt_of_run (List.forall_mem_nil _) whole second

end Soundness

end ApiClient.Layout
