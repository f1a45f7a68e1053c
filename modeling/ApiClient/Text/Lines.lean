/-! Lines of a text.

`split` cuts at every separator and keeps the pieces between them, empty ones included: none of
them holds a separator, and together they give the text back. `lines` reads a text as lines that
end in a line feed: the end of a line takes one carriage return before the line feed with it, and
nothing after the last line feed is no line.
-/

set_option autoImplicit false

namespace ApiClient.Text

/-- The pieces between separators; there is always at least one. -/
def split (separator : Char) : List Char → List (List Char)
  | [] => [[]]
  | c :: rest =>
    match split separator rest with
    | [] => [[c]]
    | piece :: pieces =>
      if c = separator then [] :: piece :: pieces else (c :: piece) :: pieces

theorem split_ne_nil (separator : Char) (cs : List Char) : split separator cs ≠ [] := by
  cases cs with
  | nil => simp [split]
  | cons c rest =>
    rw [split]
    split
    · simp
    · split <;> simp

theorem not_mem_of_mem_split (separator : Char) (cs piece : List Char)
    (member : piece ∈ split separator cs) : separator ∉ piece := by
  induction cs generalizing piece with
  | nil => simp_all [split]
  | cons c rest ih =>
    rw [split] at member
    split at member
    · next empty => exact absurd empty (split_ne_nil separator rest)
    · next first others eq =>
      split at member
      · rcases List.mem_cons.1 member with rfl | later
        · simp
        · exact ih piece (eq ▸ later)
      · next other =>
        rcases List.mem_cons.1 member with rfl | later
        · have := ih first (by simp [eq])
          simp [this, Ne.symm other]
        · exact ih piece (by simp [eq, later])

theorem split_append (separator : Char) (front back : List Char) :
    split separator (front ++ separator :: back) =
      split separator front ++ split separator back := by
  induction front with
  | nil =>
    obtain ⟨piece, pieces, cut⟩ := List.exists_cons_of_ne_nil (split_ne_nil separator back)
    simp [split, cut]
  | cons c rest ih =>
    obtain ⟨piece, pieces, cut⟩ := List.exists_cons_of_ne_nil (split_ne_nil separator rest)
    rw [List.cons_append, split, ih, split, cut]
    by_cases cutHere : c = separator
    · simp [cutHere]
    · simp [cutHere]

theorem intercalate_split (separator : Char) (cs : List Char) :
    [separator].intercalate (split separator cs) = cs := by
  induction cs with
  | nil => rfl
  | cons c rest ih =>
    rw [split]
    split
    · next empty => exact absurd empty (split_ne_nil separator rest)
    · next first others eq =>
      rw [eq] at ih
      split
      · next same =>
        simp only [List.intercalate, List.intersperse, ← same] at ih ⊢
        simpa using ih
      · cases others <;> simp_all [List.intercalate, List.intersperse]

def trimEnd (drop : Char → Bool) (cs : List Char) : List Char :=
  (cs.reverse.dropWhile drop).reverse

def dropReturn (cs : List Char) : List Char :=
  if cs.getLast? = some '\r' then cs.dropLast else cs

/-- Lines of pieces between line feeds: only the last piece had no line feed after it. -/
def endLines : List (List Char) → List (List Char)
  | [] => []
  | [last] => if last = [] then [] else [last]
  | piece :: next :: rest => dropReturn piece :: endLines (next :: rest)

def lines (text : String) : List String :=
  (endLines (split '\n' text.toList)).map String.ofList

def bareLines (text : String) : List String :=
  (split '\n' text.toList).map fun piece => String.ofList (trimEnd (· == '\r') piece)

end ApiClient.Text
