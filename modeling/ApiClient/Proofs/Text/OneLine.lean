import Mathlib.Data.List.TakeWhile
import ApiClient.Proofs.Number.Notation
import ApiClient.Text.Quoted
import ApiClient.Text.Lines

/-! Texts without a line feed: cut lines, quoted texts and numbers are such texts, whatever they
were made from. -/

set_option autoImplicit false

namespace ApiClient.Text

def OneLine (text : String) : Prop :=
  '\n' ∉ text.toList

instance (text : String) : Decidable (OneLine text) :=
  inferInstanceAs (Decidable ('\n' ∉ text.toList))

namespace OneLine

theorem empty : OneLine "" := by decide

theorem append {front back : String} (first : OneLine front) (second : OneLine back) :
    OneLine (front ++ back) := by
  unfold OneLine at *
  simp [first, second]

theorem of_subset {cs ds : List Char} (subset : cs ⊆ ds) (oneLine : '\n' ∉ ds) :
    OneLine (String.ofList cs) := by
  intro feed
  rw [String.toList_ofList] at feed
  exact oneLine (subset feed)

theorem of_forall {cs : List Char} (others : ∀ c ∈ cs, c ≠ '\n') :
    OneLine (String.ofList cs) := by
  intro feed
  rw [String.toList_ofList] at feed
  exact others '\n' feed rfl

theorem intercalate {separator : String} (between : OneLine separator) {texts : List String}
    (each : ∀ text ∈ texts, OneLine text) : OneLine (separator.intercalate texts) := by
  induction texts with
  | nil => exact empty
  | cons text rest ih =>
    obtain ⟨first, later⟩ := List.forall_mem_cons.1 each
    cases rest with
    | nil => simpa using first
    | cons next rest =>
      rw [String.intercalate_cons_cons]
      exact (first.append between).append (ih later)

end OneLine

theorem dropReturn_subset (cs : List Char) : dropReturn cs ⊆ cs := by
  unfold dropReturn
  split
  · exact (List.dropLast_prefix cs).subset
  · exact List.Subset.refl cs

theorem exists_trimEnd_append (drop : Char → Bool) (cs : List Char) :
    ∃ back, cs = trimEnd drop cs ++ back ∧ ∀ c ∈ back, drop c = true := by
  refine ⟨(cs.reverse.takeWhile drop).reverse, ?_, fun c member => ?_⟩
  · rw [trimEnd, ← List.reverse_append, List.takeWhile_append_dropWhile, List.reverse_reverse]
  · exact List.mem_takeWhile_imp (List.mem_reverse.1 member)

theorem trimEnd_subset (drop : Char → Bool) (cs : List Char) : trimEnd drop cs ⊆ cs := by
  intro c member
  have kept := (List.dropWhile_suffix drop).subset (List.mem_reverse.1 member)
  exact List.mem_reverse.1 kept

theorem exists_of_mem_endLines {pieces : List (List Char)} {line : List Char}
    (member : line ∈ endLines pieces) : ∃ piece ∈ pieces, line ⊆ piece := by
  induction pieces with
  | nil => contradiction
  | cons piece rest ih =>
    cases rest with
    | nil =>
      unfold endLines at member
      split at member
      · contradiction
      · exact ⟨piece, by simp, by simp [List.mem_singleton.1 member]⟩
    | cons next rest =>
      rcases List.mem_cons.1 member with rfl | later
      · exact ⟨piece, by simp, dropReturn_subset piece⟩
      · obtain ⟨source, found, subset⟩ := ih later
        exact ⟨source, List.mem_cons_of_mem piece found, subset⟩

theorem oneLine_of_mem_lines {text line : String} (member : line ∈ lines text) : OneLine line := by
  -- a line is a piece without its carriage return, and no piece has a separator
  obtain ⟨cs, found, rfl⟩ := List.mem_map.1 member
  obtain ⟨piece, cut, subset⟩ := exists_of_mem_endLines found
  exact .of_subset subset (not_mem_of_mem_split '\n' text.toList piece cut)

theorem oneLine_of_mem_bareLines {text line : String} (member : line ∈ bareLines text) :
    OneLine line := by
  obtain ⟨piece, cut, rfl⟩ := List.mem_map.1 member
  exact .of_subset (trimEnd_subset _ piece) (not_mem_of_mem_split '\n' text.toList piece cut)

theorem doubleQuotedChar_ne_feed (c d : Char) (member : d ∈ doubleQuotedChar c) : d ≠ '\n' := by
  unfold doubleQuotedChar at member
  split at member
  case h_5 other _ =>
    rw [List.mem_singleton.1 member]
    exact other
  all_goals
    rintro rfl
    simp at member

theorem oneLine_doubleQuoted (text : String) : OneLine (doubleQuoted text) := by
  have inner : OneLine (escapeWith doubleQuotedChar text) := by
    refine .of_forall fun d member => ?_
    obtain ⟨c, -, escaped⟩ := List.mem_flatMap.1 member
    exact doubleQuotedChar_ne_feed c d escaped
  have quote : OneLine "\"" := by decide
  exact (quote.append inner).append quote

open Number

theorem oneLine_numerals {text : String} (numerals : Numerals text) : OneLine text :=
  fun feed => absurd (numerals '\n' feed) (by decide)

end ApiClient.Text
