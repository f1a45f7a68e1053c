import Mathlib.Data.List.Infix
import ApiClient.Text.Search

/-! The first occurrence of one text in another. -/

set_option autoImplicit false

namespace ApiClient.Text

/-- An occurrence does not start in a text without the first character. -/
theorem infix_append_iff_of_not_mem {c : Char} {needle front back : List Char} (free : c ∉ front) :
    c :: needle <:+: front ++ back ↔ c :: needle <:+: back := by
  induction front with
  | nil => rfl
  | cons d rest ih =>
    obtain ⟨other, later⟩ := List.ne_and_not_mem_of_not_mem_cons free
    rw [List.cons_append, List.infix_cons_iff, List.cons_prefix_cons, ih later]
    simp [other]

theorem append_dropLast_prefix (before needle after : List Char) :
    before ++ needle.dropLast <+: before ++ needle ++ after := by
  rw [List.append_assoc]
  refine (List.prefix_append_right_inj before).2 ?_
  exact (List.dropLast_prefix needle).trans (List.prefix_append needle after)

/-- A text is cut at the first occurrence: none ends before the cut is complete. -/
theorem cutAt?_eq_some_iff {needle text before after : List Char} (filled : needle ≠ []) :
    cutAt? needle text = some (before, after) ↔
      text = before ++ needle ++ after ∧ ¬needle <:+: before ++ needle.dropLast := by
  have shorter : needle.dropLast.length < needle.length := by
    rw [List.length_dropLast]
    exact Nat.sub_lt (List.length_pos_of_ne_nil filled) Nat.one_pos
  induction text generalizing before with
  | nil => simp [cutAt?, filled]
  | cons c rest ih =>
    rw [cutAt?]
    by_cases here : needle.isPrefixOf (c :: rest) = true
    · rw [if_pos here]
      obtain ⟨tail, eq⟩ := List.isPrefixOf_iff_prefix.1 here
      cases before with
      | nil =>
        have free : ¬needle <:+: needle.dropLast := fun inside => absurd inside.length_le (by omega)
        simp [free, ← eq]
      | cons b before =>
        -- an occurrence at the very start would end before the other one
        refine iff_of_false (by simp) ?_
        rintro ⟨whole, free⟩
        refine free ?_
        have front : b :: before ++ needle.dropLast <+: c :: rest := by
          rw [whole]
          exact append_dropLast_prefix (b :: before) needle after
        refine (List.prefix_of_prefix_length_le ⟨tail, eq⟩ front ?_).isInfix
        rw [List.length_append, List.length_dropLast, List.length_cons]
        omega
    · rw [if_neg here]
      have other : ¬needle <+: c :: rest := mt List.isPrefixOf_iff_prefix.2 here
      cases before with
      | nil =>
        refine iff_of_false (by simp) ?_
        rintro ⟨whole, -⟩
        exact other ⟨after, whole.symm⟩
      | cons b before =>
        constructor
        · intro found
          obtain ⟨⟨front, back⟩, cut, same⟩ := Option.map_eq_some_iff.1 found
          obtain ⟨⟨rfl, rfl⟩, rfl⟩ : (c = b ∧ front = before) ∧ back = after := by
            simpa using same
          obtain ⟨whole, free⟩ := ih.1 cut
          refine ⟨congrArg (c :: ·) whole, fun inside => ?_⟩
          rcases List.infix_cons_iff.1 inside with start | later
          · refine other (start.trans ?_)
            rw [whole]
            exact append_dropLast_prefix (c :: front) needle back
          · exact free later
        · rintro ⟨whole, free⟩
          obtain ⟨rfl, rest⟩ := List.cons.inj whole
          have cut := ih.2 ⟨rest, fun inside => free (List.infix_cons inside)⟩
          rw [cut]
          rfl

theorem cutAt?_eq_none_iff {needle text : List Char} :
    cutAt? needle text = none ↔ ¬needle <:+: text := by
  induction text with
  | nil => simp [cutAt?]
  | cons c rest ih =>
    rw [cutAt?, List.infix_cons_iff, not_or, ← ih, ← List.isPrefixOf_iff_prefix]
    split <;> simp_all

/-- What is cut off begins whatever stands in front of another occurrence. -/
theorem prefix_of_cutAt? {needle text before after front back : List Char}
    (found : cutAt? needle text = some (before, after)) (other : text = front ++ needle ++ back) :
    before <+: front := by
  induction text generalizing before front with
  | nil =>
    obtain ⟨-, ⟨⟩⟩ : needle = [] ∧ ([], []) = (before, after) := by simpa [cutAt?] using found
    exact List.nil_prefix
  | cons c rest ih =>
    rw [cutAt?] at found
    split at found
    · cases found
      exact List.nil_prefix
    · next notHere =>
      obtain ⟨⟨inner, _⟩, cut, same⟩ := Option.map_eq_some_iff.1 found
      cases same
      cases front with
      | nil => exact absurd (List.isPrefixOf_iff_prefix.2 ⟨back, other.symm⟩) notHere
      | cons d front =>
        obtain ⟨rfl, later⟩ := List.cons.inj other
        exact List.cons_prefix_cons.2 ⟨rfl, ih cut later⟩

end ApiClient.Text
