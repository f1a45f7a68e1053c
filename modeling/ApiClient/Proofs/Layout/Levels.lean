import Mathlib.Algebra.Order.Ring.Int
import Mathlib.Order.Bounds.Basic
import ApiClient.Layout.LineBuffer
import ApiClient.Proofs.Layout.Depth

/-! Levels of a line buffer.

The level is a counter that is reflected at zero: closing a scope that is not open is forgotten.
So the level after a run is no sum of its steps, but the greatest of the sums over the ends of the
run, with the level at its start in front of the sum over all of it. A run that closes only scopes
of its own is never reflected, and writes no line above the level at which it starts.
-/

set_option autoImplicit false

namespace ApiClient.Layout.LineBuffer

namespace Step

def opens : Step → Bool
  | .deeper => true
  | _ => false

def closes : Step → Bool
  | .shallower => true
  | _ => false

def writesLines : Step → Bool
  | .line _ => true
  | .docComment _ => true
  | .comment _ => true
  | _ => false

def lines : Step → List String
  | .line text => [text]
  | .docComment [] => []
  | .docComment texts => "/**" :: texts.map docLine ++ [" */"]
  | .comment text => ["// " ++ text]
  | _ => []

def pieces (indent : Indent) (depth : Nat) : Step → List String
  | .blank => ["\n"]
  | .raw text => [text]
  | step => step.lines.map fun text => indent.times depth ++ text ++ "\n"

end Step

def run (buffer : LineBuffer) (steps : List Step) : LineBuffer :=
  steps.foldl apply buffer

def climb (steps : List Step) : Int :=
  steps.countP Step.opens - steps.countP Step.closes

/-- Every scope that is closed has been opened before, by the same steps. -/
def ClosesOwnScopes (steps : List Step) : Prop :=
  ∀ k ≤ steps.length, 0 ≤ climb (steps.take k)

/-- No scope is closed that was not opened, and none is left open. -/
structure WellNested (steps : List Step) : Prop where
  own : ClosesOwnScopes steps
  settled : climb steps = 0

theorem climb_append (first second : List Step) :
    climb (first ++ second) = climb first + climb second := by
  simp only [climb, List.countP_append, Nat.cast_add]
  omega

/-- The sums of which the level after some steps is the greatest: over all of them from the level at
the start, and over the last of them, however many. -/
def sums (start : Nat) (steps : List Step) (n : Nat) : Set Int :=
  insert (start + climb (steps.take n))
    {sum | ∃ k ≤ n, sum = climb (steps.take n) - climb (steps.take k)}

theorem apply_eq (buffer : LineBuffer) (step : Step) :
    buffer.apply step = {
      indent := buffer.indent
      depth := if step.opens then buffer.depth + 1
        else if step.closes then buffer.depth - 1 else buffer.depth
      text := buffer.text ++ String.join (step.pieces buffer.indent buffer.depth) } := by
  cases step with
  | line text => simp [apply, line, raw, margin, Step.opens, Step.closes, Step.pieces, Step.lines]
  | blank => simp [apply, blank, raw, Step.opens, Step.closes, Step.pieces]
  | raw text => simp [apply, raw, Step.opens, Step.closes, Step.pieces]
  | deeper => simp [apply, deeper, Step.opens, Step.pieces, Step.lines]
  | shallower => simp [apply, shallower, Step.opens, Step.closes, Step.pieces, Step.lines]
  | comment text =>
    simp [apply, comment, line, raw, margin, Step.opens, Step.closes, Step.pieces, Step.lines]
  | docComment texts =>
    cases texts with
    | nil => simp [apply, docComment, Step.opens, Step.closes, Step.pieces, Step.lines]
    | cons text rest =>
      have inner := docLines_eq (buffer.line "/**") (text :: rest)
      simp only [apply, docComment, List.isEmpty_cons, Bool.false_eq_true, if_false, inner]
      simp [line, raw, margin, Step.opens, Step.closes, Step.pieces, Step.lines,
        String.append_assoc, Function.comp_def]

theorem depth_apply (buffer : LineBuffer) (step : Step) :
    ((buffer.apply step).depth : Int) = max (buffer.depth + climb [step]) 0 := by
  rw [apply_eq]
  cases step <;> simp [climb, Step.opens, Step.closes] <;> omega

section Run

variable {steps : List Step} {n : Nat}

theorem indent_run (buffer : LineBuffer) (steps : List Step) :
    (buffer.run steps).indent = buffer.indent := by
  induction steps generalizing buffer with
  | nil => rfl
  | cons step rest ih =>
    change ((buffer.apply step).run rest).indent = buffer.indent
    rw [ih, apply_eq]

theorem run_take_succ (buffer : LineBuffer) (inside : n < steps.length) :
    buffer.run (steps.take (n + 1)) = (buffer.run (steps.take n)).apply steps[n] := by
  rw [List.take_succ_eq_append_getElem inside]
  exact List.foldl_append

theorem climb_take_succ (inside : n < steps.length) :
    climb (steps.take (n + 1)) = climb (steps.take n) + climb [steps[n]] := by
  rw [List.take_succ_eq_append_getElem inside, climb_append]

theorem text_run_take_succ (buffer : LineBuffer) (inside : n < steps.length) :
    (buffer.run (steps.take (n + 1))).text = (buffer.run (steps.take n)).text ++
      String.join (steps[n].pieces buffer.indent (buffer.run (steps.take n)).depth) := by
  rw [run_take_succ buffer inside, apply_eq, indent_run]

/-- One step reflects the greatest sum at zero, where the sum over no steps comes in. -/
theorem isGreatest_depth_run (buffer : LineBuffer) (within : n ≤ steps.length) :
    IsGreatest (sums buffer.depth steps n) (buffer.run (steps.take n)).depth := by
  induction n with
  | zero =>
    have start : ((buffer.run (steps.take 0)).depth : Int) = buffer.depth + climb (steps.take 0) :=
      (add_zero _).symm
    refine ⟨.inl start, ?_⟩
    rintro sum (rfl | ⟨k, none, rfl⟩)
    · exact start.ge
    · simp [Nat.le_zero.1 none]
  | succ n ih =>
    obtain ⟨reached, bound⟩ := ih (Nat.le_of_succ_le within)
    have next := climb_take_succ within
    have level : ((buffer.run (steps.take (n + 1))).depth : Int) =
        max ((buffer.run (steps.take n)).depth + climb [steps[n]]) 0 := by
      rw [run_take_succ buffer within]
      exact depth_apply _ _
    rw [level]
    constructor
    · -- the new level is a sum: the one that was reached before, a step longer, or that of no step
      rcases le_total 0 ((buffer.run (steps.take n)).depth + climb [steps[n]]) with above | below
      · rw [max_eq_left above]
        rcases reached with start | ⟨k, early, sum⟩
        · left
          omega
        · right
          exact ⟨k, Nat.le_succ_of_le early, by omega⟩
      · rw [max_eq_right below]
        right
        exact ⟨n + 1, le_rfl, by omega⟩
    · -- no sum is above it: each is one from before, a step longer, apart from that of no step
      rintro sum (rfl | ⟨k, early, rfl⟩)
      · have start := bound (.inl rfl)
        omega
      · rcases Nat.lt_or_eq_of_le early with before | rfl
        · have later := bound (.inr ⟨k, Nat.le_of_lt_succ before, rfl⟩)
          omega
        · omega

theorem depth_run_of_closesOwnScopes (buffer : LineBuffer) (own : ClosesOwnScopes steps)
    (within : n ≤ steps.length) :
    ((buffer.run (steps.take n)).depth : Int) = buffer.depth + climb (steps.take n) := by
  obtain ⟨reached, bound⟩ := isGreatest_depth_run buffer within
  have start := bound (.inl rfl)
  rcases reached with same | ⟨k, early, sum⟩
  · exact same
  · have opened := own k (early.trans within)
    omega

/-- What a step writes on lines of its own begins with the margin of its level, and so with that of
any level below. -/
theorem exists_of_mem_pieces {step : Step} {indent : Indent} {depth least : Nat}
    (writes : step.writesLines = true) (above : least ≤ depth) {piece : String}
    (member : piece ∈ step.pieces indent depth) : ∃ rest, piece = indent.times least ++ rest := by
  have lined : step.pieces indent depth =
      step.lines.map fun text => indent.times depth ++ text ++ "\n" := by
    cases step with
    | line text => rfl
    | docComment texts => rfl
    | comment text => rfl
    | deeper => rfl
    | shallower => rfl
    | blank => cases writes
    | raw text => cases writes
  rw [lined] at member
  obtain ⟨text, -, rfl⟩ := List.mem_map.1 member
  obtain ⟨further, rfl⟩ := Nat.exists_eq_add_of_le above
  exact ⟨indent.times further ++ text ++ "\n", by simp [Indent.times_add, String.append_assoc]⟩

end Run

/-- The level after any number of steps is the counter reflected at zero. Each step appends to the
text what depends on the step, the unit and the level only. A run that closes its own scopes only
writes no line above its first level, and when it is well nested, it returns to that level. -/
theorem levels_reflect (buffer : LineBuffer) (steps : List Step) :
    (∀ n ≤ steps.length,
      IsGreatest (sums buffer.depth steps n) (buffer.run (steps.take n)).depth) ∧
    (∀ n (inside : n < steps.length),
      (buffer.run (steps.take (n + 1))).text = (buffer.run (steps.take n)).text ++
        String.join (steps[n].pieces buffer.indent (buffer.run (steps.take n)).depth)) ∧
    (ClosesOwnScopes steps →
      ((buffer.run steps).depth : Int) = buffer.depth + climb steps ∧
      ∀ n (inside : n < steps.length), steps[n].writesLines = true →
        ∀ piece ∈ steps[n].pieces buffer.indent (buffer.run (steps.take n)).depth,
          ∃ rest, piece = buffer.indent.times buffer.depth ++ rest) ∧
    (WellNested steps → (buffer.run steps).depth = buffer.depth) := by
  have settled (own : ClosesOwnScopes steps) :
      ((buffer.run steps).depth : Int) = buffer.depth + climb steps := by
    have level := depth_run_of_closesOwnScopes buffer own le_rfl
    rwa [List.take_length] at level
  refine ⟨fun n within => isGreatest_depth_run buffer within,
    fun n inside => text_run_take_succ buffer inside, fun own => ⟨settled own, ?_⟩,
    fun nested => ?_⟩
  · intro n inside writes piece member
    refine exists_of_mem_pieces writes ?_ member
    have level := depth_run_of_closesOwnScopes buffer own inside.le
    have opened := own n inside.le
    omega
  · have level := settled nested.own
    rw [nested.settled] at level
    omega

def scopeSteps : List Step :=
  [.line "namespace Api", .deeper, .docComment ["Version", ""], .line "const version = 1;", .blank,
   .shallower, .comment "end"]

theorem levels_reflect_scope :
    IsGreatest (sums 1 [.shallower, .shallower, .deeper] 3)
      (({ depth := 1 } : LineBuffer).run [.shallower, .shallower, .deeper]).depth ∧
    (({ depth := 1 } : LineBuffer).run scopeSteps).depth = 1 ∧
    ∃ rest, "         * Version\n" = Indent.standard.times 1 ++ rest := by
  have nested : WellNested scopeSteps := ⟨by unfold ClosesOwnScopes; decide, by decide⟩
  obtain ⟨-, -, above, back⟩ := levels_reflect { depth := 1 } scopeSteps
  refine ⟨(levels_reflect { depth := 1 } [.shallower, .shallower, .deeper]).1 3 (by decide),
    back nested, (above nested.own).2 2 (by decide) rfl _ ?_⟩
  decide +kernel

end ApiClient.Layout.LineBuffer
