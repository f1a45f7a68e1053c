import Mathlib.Data.List.Forall2
import ApiClient.Manifest.Basic
import ApiClient.Manifest.Identifier

/-! What identifiers are, and when two names are the same.

A word has the form of an identifier and may be reserved. Two names are spelled alike when they
differ at most in the case of basic Latin letters, character by character.
-/

set_option autoImplicit false

namespace ApiClient.Manifest

def IsWordChar (c : Char) : Prop :=
  'a' ≤ c ∧ c ≤ 'z' ∨ 'A' ≤ c ∧ c ≤ 'Z' ∨ '0' ≤ c ∧ c ≤ '9' ∨ c = '_' ∨ c = '$'

structure IsWord (name : String) : Prop where
  ne_empty : name ≠ ""
  chars : ∀ c ∈ name.toList, IsWordChar c
  start : ∀ c ∈ name.toList.head?, ¬ ('0' ≤ c ∧ c ≤ '9')

structure IsIdentifier (name : String) : Prop extends IsWord name where
  free : name ∉ Identifier.reservedWords

theorem isDigit_eq_true_iff (c : Char) : c.isDigit = true ↔ '0' ≤ c ∧ c ≤ '9' := by
  simp [Char.isDigit, Char.le_def]

theorem isIdentifierChar_iff (c : Char) :
    Identifier.isIdentifierChar c = true ↔ IsWordChar c := by
  have upper : c.isUpper = true ↔ 'A' ≤ c ∧ c ≤ 'Z' := decide_eq_true_iff
  have lower : c.isLower = true ↔ 'a' ≤ c ∧ c ≤ 'z' := by
    change (decide ('a' ≤ c) && decide (c ≤ 'z')) = true ↔ _
    rw [Bool.and_eq_true, decide_eq_true_iff, decide_eq_true_iff]
  have letter : c.isAlpha = true ↔ 'a' ≤ c ∧ c ≤ 'z' ∨ 'A' ≤ c ∧ c ≤ 'Z' := by
    change (c.isUpper || c.isLower) = true ↔ _
    rw [Bool.or_eq_true, upper, lower, or_comm]
  simp [Identifier.isIdentifierChar, Char.isAlphanum, IsWordChar, letter, isDigit_eq_true_iff,
    or_assoc]

theorem isWord_iff (name : String) :
    IsWord name ↔ ∃ c rest, name.toList = c :: rest ∧ c.isDigit = false ∧
      ∀ d ∈ c :: rest, Identifier.isIdentifierChar d = true := by
  constructor
  · rintro ⟨full, chars, start⟩
    cases text : name.toList with
    | nil => exact absurd (String.toList_eq_nil_iff.1 text) full
    | cons c rest =>
      rw [text] at chars start
      refine ⟨c, rest, rfl, ?_, fun d member => (isIdentifierChar_iff d).2 (chars d member)⟩
      rw [Bool.eq_false_iff, ne_eq, isDigit_eq_true_iff]
      exact start c rfl
  · rintro ⟨c, rest, text, notDigit, chars⟩
    refine ⟨?_, ?_, ?_⟩
    · rintro rfl
      cases text
    · rw [text]
      exact fun d member => (isIdentifierChar_iff d).1 (chars d member)
    · rw [text]
      rintro _ ⟨⟩
      rw [← isDigit_eq_true_iff, notDigit]
      simp

theorem problem?_eq_none_iff_isIdentifier (name : String) :
    Identifier.problem? name = none ↔ IsIdentifier name := by
  rw [Identifier.problem?_eq_none_iff]
  constructor
  · rintro ⟨c, rest, text, notDigit, chars, free⟩
    exact ⟨(isWord_iff name).2 ⟨c, rest, text, notDigit, chars⟩, free⟩
  · rintro ⟨word, free⟩
    obtain ⟨c, rest, text, notDigit, chars⟩ := (isWord_iff name).1 word
    exact ⟨c, rest, text, notDigit, chars, free⟩

theorem IsWord.problem?_eq {name : String} (word : IsWord name) :
    Identifier.problem? name =
      if name ∈ Identifier.reservedWords then some .reserved else none := by
  obtain ⟨c, rest, text, notDigit, chars⟩ := (isWord_iff name).1 word
  simp [Identifier.problem?, text, notDigit, List.all_eq_true.2 chars]

/-- Characters that differ at most in the case of a basic Latin letter. -/
def SameLetter (first second : Char) : Prop :=
  first = second ∨ 'A' ≤ first ∧ first ≤ 'Z' ∧ second.toNat = first.toNat + 32 ∨
    'A' ≤ second ∧ second ≤ 'Z' ∧ first.toNat = second.toNat + 32

def SameSpelling (first second : String) : Prop :=
  List.Forall₂ SameLetter first.toList second.toList

theorem toNat_toLower (c : Char) :
    c.toLower.toNat = if 'A' ≤ c ∧ c ≤ 'Z' then c.toNat + 32 else c.toNat := by
  have range : c.val ≥ 'A'.val ∧ c.val ≤ 'Z'.val ↔ 'A' ≤ c ∧ c ≤ 'Z' := Iff.rfl
  unfold Char.toLower
  split
  · next upper =>
    have bound : c.val.toNat ≤ 90 := upper.2
    rw [if_pos (range.1 upper)]
    change (c.val.toNat + 32) % 2 ^ 32 = c.val.toNat + 32
    exact Nat.mod_eq_of_lt (by omega)
  · next other => rw [if_neg (range.not.1 other)]

theorem toLower_eq_iff (first second : Char) :
    first.toLower = second.toLower ↔ SameLetter first second := by
  have range (c : Char) : 'A' ≤ c ∧ c ≤ 'Z' ↔ 65 ≤ c.toNat ∧ c.toNat ≤ 90 := Iff.rfl
  simp only [SameLetter, ← Char.toNat_inj, toNat_toLower, ← and_assoc, range]
  split <;> split <;> omega

theorem toNat_toUpper (c : Char) :
    c.toUpper.toNat = if 'a' ≤ c ∧ c ≤ 'z' then c.toNat - 32 else c.toNat := by
  have range : 'a'.val ≤ c.val ∧ c.val ≤ 'z'.val ↔ 'a' ≤ c ∧ c ≤ 'z' := Iff.rfl
  have distance : ('A'.val - 'a'.val).toNat = 4294967264 := by decide
  unfold Char.toUpper
  split
  · next lower =>
    have above : 97 ≤ c.val.toNat := lower.1
    have below : c.val.toNat ≤ 122 := lower.2
    rw [if_pos (range.1 lower), Char.toNat, Char.toNat, UInt32.toNat_add, distance]
    omega
  · next other => rw [if_neg (range.not.1 other)]

theorem toLower_eq_iff_of_toLower_eq {lower : Char} (settled : lower.toLower = lower) (c : Char) :
    c.toLower = lower ↔ c = lower ∨ c = lower.toUpper := by
  have upperRange (c : Char) : 'A' ≤ c ∧ c ≤ 'Z' ↔ 65 ≤ c.toNat ∧ c.toNat ≤ 90 := Iff.rfl
  have lowerRange (c : Char) : 'a' ≤ c ∧ c ≤ 'z' ↔ 97 ≤ c.toNat ∧ c.toNat ≤ 122 := Iff.rfl
  simp only [← Char.toNat_inj, toNat_toLower, toNat_toUpper, upperRange, lowerRange] at settled ⊢
  split at settled <;> split <;> split <;> omega

theorem IsWordChar.toNat_lt {c : Char} (word : IsWordChar c) : c.toNat < 0x80 := by
  rcases word with ⟨-, below⟩ | ⟨-, below⟩ | ⟨-, below⟩ | rfl | rfl
  · exact Nat.lt_of_le_of_lt below (by decide)
  · exact Nat.lt_of_le_of_lt below (by decide)
  · exact Nat.lt_of_le_of_lt below (by decide)
  · decide
  · decide

theorem toLower_eq_or (c : Char) : c.toLower = c ∨ 'a' ≤ c.toLower ∧ c.toLower ≤ 'z' := by
  have lowerRange : 'a' ≤ c.toLower ∧ c.toLower ≤ 'z' ↔
    97 ≤ c.toLower.toNat ∧ c.toLower.toNat ≤ 122 := Iff.rfl
  rw [← Char.toNat_inj, lowerRange, toNat_toLower]
  split
  · next upper =>
    have above : 65 ≤ c.toNat := upper.1
    have below : c.toNat ≤ 90 := upper.2
    omega
  · exact .inl rfl

theorem IsWordChar.toLower {c : Char} (word : IsWordChar c) : IsWordChar c.toLower := by
  rcases toLower_eq_or c with same | lower
  · rwa [same]
  · exact .inl lower

theorem not_digit_toLower {c : Char} (start : ¬ ('0' ≤ c ∧ c ≤ '9')) :
    ¬ ('0' ≤ c.toLower ∧ c.toLower ≤ '9') := by
  rcases toLower_eq_or c with same | ⟨above, -⟩
  · rwa [same]
  · rintro ⟨-, below⟩
    exact absurd (Char.le_trans above below) (by decide)

theorem sameName_iff (first second : String) :
    sameName first second = true ↔ SameSpelling first second := by
  rw [sameName, beq_iff_eq, ← List.forall₂_eq_eq_eq, List.forall₂_map_left_iff,
    List.forall₂_map_right_iff]
  simp only [toLower_eq_iff, SameSpelling]

end ApiClient.Manifest
