import ApiClient.Proofs.Text.OneLine

/-! Texts moved to the right: a margin stands in front of every line that is not empty.

The moved text is defined on whole lines. Rendering puts texts together from pieces that end in
the middle of a line, so pieces are moved character by character: whether a line starts is carried
from each piece to the next, and two moved pieces side by side are the moved whole.
-/

set_option autoImplicit false

namespace ApiClient.Text

def marginLine (margin line : List Char) : List Char :=
  if line = [] then [] else margin ++ line

def shiftLines (margin text : String) : String :=
  String.ofList (['\n'].intercalate ((split '\n' text.toList).map (marginLine margin.toList)))

/-- A piece moved to the right; at the start of a line its first character takes the margin. -/
def shiftFrom (margin : List Char) (start : Bool) : List Char → List Char
  | [] => []
  | c :: rest =>
    if c = '\n' then c :: shiftFrom margin true rest
    else (if start then margin else []) ++ c :: shiftFrom margin false rest

def startsAfter (start : Bool) : List Char → Bool
  | [] => start
  | c :: rest => startsAfter (c == '\n') rest

theorem shiftFrom_append (margin : List Char) (start : Bool) (front back : List Char) :
    shiftFrom margin start (front ++ back) =
      shiftFrom margin start front ++ shiftFrom margin (startsAfter start front) back := by
  -- each character decides anew whether a line starts, so `start` stays general
  induction front generalizing start with
  | nil => rfl
  | cons c rest ih =>
    simp only [List.cons_append, shiftFrom, startsAfter, ih]
    by_cases feed : c = '\n'
    · simp [feed]
    · have middle : (c == '\n') = false := by simpa using feed
      simp [feed, middle]

theorem startsAfter_append (start : Bool) (front back : List Char) :
    startsAfter start (front ++ back) = startsAfter (startsAfter start front) back := by
  induction front generalizing start with
  | nil => rfl
  | cons c rest ih => exact ih (c == '\n')

theorem shiftFrom_of_not_mem (margin : List Char) (start : Bool) {line : List Char}
    (oneLine : '\n' ∉ line) :
    shiftFrom margin start line = if start then marginLine margin line else line := by
  induction line generalizing start with
  | nil => cases start <;> rfl
  | cons c rest ih =>
    obtain ⟨other, later⟩ := List.ne_and_not_mem_of_not_mem_cons oneLine
    have within := ih false later
    simp only [Bool.false_eq_true, if_false] at within
    simp only [shiftFrom, if_neg other.symm, within]
    cases start <;> simp [marginLine]

theorem startsAfter_of_not_mem {line : List Char} (oneLine : '\n' ∉ line) (start : Bool) :
    startsAfter start line = (start && line.isEmpty) := by
  induction line generalizing start with
  | nil => simp [startsAfter]
  | cons c rest ih =>
    obtain ⟨other, later⟩ := List.ne_and_not_mem_of_not_mem_cons oneLine
    have middle : (c == '\n') = false := by simpa using other.symm
    simp [startsAfter, middle, ih later]

theorem shiftFrom_intercalate (margin : List Char) (pieces : List (List Char))
    (oneLine : ∀ piece ∈ pieces, '\n' ∉ piece) :
    shiftFrom margin true (['\n'].intercalate pieces) =
      ['\n'].intercalate (pieces.map (marginLine margin)) := by
  induction pieces with
  | nil => rfl
  | cons piece rest ih =>
    obtain ⟨first, later⟩ := List.forall_mem_cons.1 oneLine
    have moved := shiftFrom_of_not_mem margin true first
    cases rest with
    | nil => simpa [List.intercalate] using moved
    | cons next rest =>
      -- the line feed starts a line even when the piece before it is empty
      have feed : startsAfter true (piece ++ ['\n']) = true := by
        simp [startsAfter_append, startsAfter]
      rw [List.intercalate_cons_cons, shiftFrom_append, shiftFrom_append, moved, feed, ih later]
      simp [shiftFrom, List.intercalate_cons_cons]

theorem shiftLines_eq_shiftFrom (margin text : String) :
    shiftLines margin text = String.ofList (shiftFrom margin.toList true text.toList) := by
  have lines := shiftFrom_intercalate margin.toList (split '\n' text.toList)
    (not_mem_of_mem_split '\n' text.toList)
  rw [intercalate_split] at lines
  rw [shiftLines, lines]

/-- The second text is the first one moved to the right, where `start` and `stop` say whether a
line starts before and after it. -/
structure Shifted (margin : String) (start stop : Bool) (text moved : String) : Prop where
  moved_eq : moved.toList = shiftFrom margin.toList start text.toList
  stop_eq : startsAfter start text.toList = stop

def EndsLine (text : String) : Prop :=
  '\n' ∉ text.toList.dropLast ∧ text.toList.getLast? = some '\n'

instance (text : String) : Decidable (EndsLine text) :=
  inferInstanceAs (Decidable (_ ∧ _))

namespace Shifted

variable {margin : String} {start middle stop : Bool} {text moved : String}

theorem empty : Shifted margin start start "" "" := ⟨rfl, rfl⟩

theorem feed : Shifted margin start true "\n" "\n" := ⟨rfl, rfl⟩

theorem append {more movedMore : String} (front : Shifted margin start middle text moved)
    (back : Shifted margin middle stop more movedMore) :
    Shifted margin start stop (text ++ more) (moved ++ movedMore) := by
  constructor
  · rw [String.toList_append, String.toList_append, shiftFrom_append, front.stop_eq,
      front.moved_eq, back.moved_eq]
  · rw [String.toList_append, startsAfter_append, front.stop_eq, back.stop_eq]

theorem within (oneLine : OneLine text) : Shifted margin false false text text := by
  constructor
  · rw [shiftFrom_of_not_mem _ _ oneLine, if_neg Bool.false_ne_true]
  · rw [startsAfter_of_not_mem oneLine, Bool.false_and]

theorem ending (ends : EndsLine text) : Shifted margin false true text text := by
  obtain ⟨within, last⟩ := ends
  have chars : text.toList = text.toList.dropLast ++ ['\n'] :=
    (List.dropLast_append_getLast? _ last).symm
  constructor
  · rw [chars, shiftFrom_append, shiftFrom_of_not_mem _ _ within, if_neg Bool.false_ne_true]
    rfl
  · rw [chars, startsAfter_append]
    rfl

theorem line (oneLine : OneLine text) (filled : text ≠ "") :
    Shifted margin true false text (margin ++ text) := by
  have chars : text.toList ≠ [] := mt String.toList_eq_nil_iff.1 filled
  constructor
  · rw [shiftFrom_of_not_mem _ _ oneLine, if_pos rfl, marginLine, if_neg chars,
      String.toList_append]
  · rw [startsAfter_of_not_mem oneLine, Bool.true_and]
    simpa using chars

theorem lines {texts : List String} {before after : String → String}
    (each : ∀ text ∈ texts, Shifted margin true false (before text) (after text)) :
    ∃ stop, Shifted margin true stop ("\n".intercalate (texts.map before))
      ("\n".intercalate (texts.map after)) := by
  induction texts with
  | nil => exact ⟨true, empty⟩
  | cons text rest ih =>
    obtain ⟨first, later⟩ := List.forall_mem_cons.1 each
    cases rest with
    | nil => exact ⟨false, by simpa using first⟩
    | cons next rest =>
      obtain ⟨stop, moved⟩ := ih later
      refine ⟨stop, ?_⟩
      simp only [List.map_cons, String.intercalate_cons_cons] at moved ⊢
      exact (first.append feed).append moved

end Shifted

end ApiClient.Text
